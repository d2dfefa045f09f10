import KeepAlive.Proofs.Browser.Scene

/-!
# Sessions that come to the same

Two sessions are alike from a scene on if nobody who watches them can tell them apart there: they
come to the same result in the same scene, by the same calls and pauses.  What they are gone on with
has to be alike only where they end.
-/

namespace KeepAlive.Browser.Session

variable {α β σ : Type} {server : Server σ} {scene last : Scene σ} {session other : Session α}

/-- Whether two sessions come to the same from a scene on, by the same calls and pauses. -/
structure Alike (server : Server σ) (scene : Scene σ) (session other : Session α) : Prop where
  after_eq : session.after server scene = other.after server scene
  events_eq : session.events server scene = other.events server scene

namespace Alike

theorem refl (session : Session α) : Alike server scene session session :=
  ⟨Eq.refl _, Eq.refl _⟩

theorem symm (h : Alike server scene session other) : Alike server scene other session :=
  ⟨h.after_eq.symm, h.events_eq.symm⟩

theorem trans {third : Session α} (h : Alike server scene session other)
    (hthird : Alike server scene other third) : Alike server scene session third :=
  ⟨h.after_eq.trans hthird.after_eq, h.events_eq.trans hthird.events_eq⟩

theorem yields_iff (h : Alike server scene session other) {result : α} :
    session.Yields server scene result last ↔ other.Yields server scene result last := by
  unfold Yields
  rw [h.after_eq]

theorem returns_iff (h : Alike server scene session other) {result : α} :
    session.Returns server scene result ↔ other.Returns server scene result := by
  unfold Returns
  rw [h.after_eq]

/-- Sessions that are alike may be gone on with in ways that are alike where they end. -/
theorem bind (h : Alike server scene session other) {rest more : α → Session β}
    (hrest : ∀ result last, session.Yields server scene result last →
      Alike server last (rest result) (more result)) :
    Alike server scene (session >>= rest) (other >>= more) := by
  constructor
  · rw [after_bind, after_bind, ← h.after_eq]
    rcases hafter : session.after server scene with ⟨stop | result, last⟩
    · rfl
    · exact (hrest result last hafter).after_eq
  · rw [events_bind, events_bind, ← h.after_eq, ← h.events_eq]
    rcases hafter : session.after server scene with ⟨stop | result, last⟩
    · rfl
    · exact congrArg _ (hrest result last hafter).events_eq

/-- Where only the rest differs, it has to be alike where the first part ends. -/
theorem bind_left {session : Session α} {rest more : α → Session β}
    (hrest : ∀ result last, session.Yields server scene result last →
      Alike server last (rest result) (more result)) :
    Alike server scene (session >>= rest) (session >>= more) :=
  (refl session).bind hrest

theorem bind_right (h : Alike server scene session other) (rest : α → Session β) :
    Alike server scene (session >>= rest) (other >>= rest) :=
  h.bind fun result _ _ => refl (rest result)

/-- A look at the clock shows the time of the scene. -/
theorem clock_bind (rest : Nat → Session β) :
    Alike server scene (clock >>= rest) (rest scene.now) :=
  ⟨Eq.refl _, Eq.refl _⟩

theorem lift_caught (h : Alike server scene session other) :
    Alike server scene (ExceptT.lift session.caught) (ExceptT.lift other.caught) := by
  constructor
  · have hsession := yields_lift_caught server session scene
    have hother := yields_lift_caught server other scene
    unfold Yields at hsession hother
    rw [hsession, hother, h.after_eq]
  · rw [events_lift_caught, events_lift_caught, h.events_eq]

end Alike

end KeepAlive.Browser.Session

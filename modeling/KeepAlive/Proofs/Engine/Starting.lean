import KeepAlive.Proofs.Engine.InStep

/-!
# A recovered engine is in step

When an engine starts, its orders are what the ledger asks for, except about sites that the recovery
itself has drawn anew.  Their draws are announced, and the follower of the engine has read nothing
since before the recovery.
-/

namespace KeepAlive

open Browser Time

namespace Engine

theorem lastAbout_orders_of_gone {sites : List Site} {siteId : Int}
    (h : ∀ site ∈ sites, site.id ≠ siteId) :
    lastAbout (sites.filterMap orderFor) siteId = none := by
  refine lastAbout_eq_none_iff.2 fun order horder hid => ?_
  obtain ⟨site, hsite, hfor⟩ := List.mem_filterMap.1 horder
  rw [siteId?_orderFor hfor] at hid
  exact h site hsite (Option.some.inj hid)

/-- The last order about the first of some different sites is the order for it. -/
theorem lastAbout_orders_cons_self {site : Site} {rest : List Site}
    (h : ((site :: rest).map (·.id)).Nodup) :
    lastAbout ((site :: rest).filterMap orderFor) site.id = orderFor site := by
  have hgone : lastAbout (rest.filterMap orderFor) site.id = none := by
    refine lastAbout_orders_of_gone fun other hother hid => ?_
    exact (List.nodup_cons.1 h).1 (List.mem_map.2 ⟨other, hother, hid⟩)
  cases hfor : orderFor site with
  | none => rw [List.filterMap_cons_none hfor, hgone]
  | some order =>
    rw [List.filterMap_cons_some hfor, lastAbout_cons, hgone, Option.none_or, lastAbout_singleton,
      if_pos (siteId?_orderFor hfor)]

theorem lastAbout_orders_cons_of_ne {site : Site} {rest : List Site} {siteId : Int}
    (h : siteId ≠ site.id) :
    lastAbout ((site :: rest).filterMap orderFor) siteId =
      lastAbout (rest.filterMap orderFor) siteId := by
  cases hfor : orderFor site with
  | none => rw [List.filterMap_cons_none hfor]
  | some order =>
    rw [List.filterMap_cons_some hfor, lastAbout_cons, lastAbout_singleton, if_neg, Option.or_none]
    rw [siteId?_orderFor hfor]
    exact fun heq => h (Option.some.inj heq).symm

end Engine

namespace Recovery

/-- The orders so far, and those for the sites that are left as they were read. -/
def ahead (recovery : Recovery) (rest : List Site) : List Order :=
  recovery.orders ++ rest.filterMap Engine.orderFor

/-- A recovery with some sites left.  The orders so far and those for the rest are what the ledger
asks for, unless a site is announced to a reader who has had so many events. -/
structure IsUnderWay (seen : Nat) (rest : List Site) (recovery : Recovery) : Prop where
  sound : recovery.store.IsSound
  seen_le : seen ≤ recovery.store.feed.sent
  nodup : (rest.map (·.id)).Nodup
  fresh : ∀ site ∈ rest, lastAbout recovery.orders site.id = none
  report : .report ∉ recovery.orders
  told : ∀ siteId, recovery.store.feed.Awaits seen siteId ∨
    ∃ order, recovery.store.ledger.Asks siteId order ∧
      (lastAbout (recovery.ahead rest) siteId = some order ∨
        (lastAbout (recovery.ahead rest) siteId = none ∧ order = .remove siteId))

section

variable {recovery : Recovery} {seen : Nat} {site : Site} {rest : List Site}

theorem IsUnderWay.ne_of_mem (h : recovery.IsUnderWay seen (site :: rest)) {other : Site}
    (hother : other ∈ rest) : other.id ≠ site.id :=
  fun hid => (List.nodup_cons.1 h.nodup).1 (List.mem_map.2 ⟨other, hother, hid⟩)

theorem IsUnderWay.lastAbout_self (h : recovery.IsUnderWay seen (site :: rest)) :
    lastAbout (recovery.ahead (site :: rest)) site.id = Engine.orderFor site := by
  rw [ahead, lastAbout_append, Engine.lastAbout_orders_cons_self h.nodup,
    h.fresh site List.mem_cons_self, Option.or_none]

/-- A paused site has no job to begin with. -/
theorem IsUnderWay.skip (h : recovery.IsUnderWay seen (site :: rest)) (hpaused : site.paused = true) :
    recovery.IsUnderWay seen rest := by
  refine ⟨h.sound, h.seen_le, (List.nodup_cons.1 h.nodup).2,
    fun other hother => h.fresh other (List.mem_cons_of_mem site hother), h.report, ?_⟩
  intro siteId
  refine (h.told siteId).imp_right fun ⟨order, hasks, hlast⟩ => ⟨order, hasks, ?_⟩
  by_cases hid : siteId = site.id
  · subst hid
    have hfor : Engine.orderFor site = some (.remove site.id) := if_pos hpaused
    rw [h.lastAbout_self, hfor] at hlast
    right
    refine ⟨?_, ?_⟩
    · rw [ahead, lastAbout_append, Engine.lastAbout_orders_of_gone fun _ => h.ne_of_mem,
        Option.none_or]
      exact h.fresh site List.mem_cons_self
    · rcases hlast with hsome | ⟨hnone, -⟩
      · exact (Option.some.inj hsome).symm
      · cases hnone
  · rw [ahead, lastAbout_append, Engine.lastAbout_orders_cons_of_ne hid] at hlast
    rw [ahead, lastAbout_append]
    exact hlast

/-- The order for a site is on its way as the site was read. -/
theorem IsUnderWay.install (h : recovery.IsUnderWay seen (site :: rest)) {orders : List Order}
    (horders : orders = recovery.orders ++ (Engine.orderFor site).toList) {installed : Nat}
    {error : Option RecoveryError} :
    ({ recovery with orders, installed, error } : Recovery).IsUnderWay seen rest := by
  subst horders
  have hahead : ({ recovery with
      orders := recovery.orders ++ (Engine.orderFor site).toList, installed, error } :
        Recovery).ahead rest = recovery.ahead (site :: rest) := by
    simp only [ahead, List.append_assoc]
    cases hfor : Engine.orderFor site with
    | none =>
      rw [List.filterMap_cons_none hfor]
      rfl
    | some order =>
      rw [List.filterMap_cons_some hfor]
      rfl
  refine ⟨h.sound, h.seen_le, (List.nodup_cons.1 h.nodup).2, ?_, ?_, ?_⟩
  · intro other hother
    rw [lastAbout_append, h.fresh other (List.mem_cons_of_mem site hother), Option.or_none]
    refine lastAbout_eq_none_iff.2 fun order horder hid => ?_
    rw [Engine.siteId?_orderFor (Option.mem_toList.1 horder)] at hid
    exact h.ne_of_mem hother (Option.some.inj hid).symm
  · intro hmem
    rcases List.mem_append.1 hmem with hmem | hmem
    · exact h.report hmem
    · cases Engine.siteId?_orderFor (Option.mem_toList.1 hmem)
  · intro siteId
    rw [hahead]
    exact h.told siteId

/-- The new next run of a site that is drawn anew is announced. -/
theorem IsUnderWay.awaits_drawn (h : recovery.IsUnderWay seen (site :: rest))
    (hpaused : site.paused = false) (hnext : site.next ≠ none) {moment : Moment}
    {change : Change Site}
    (hchange : recovery.store.ledger.reschedule moment site.id = .ok change) :
    (recovery.store.commit change).feed.Awaits seen site.id := by
  rcases h.told site.id with hawaits | ⟨order, hasks, hlast⟩
  · exact h.sound.awaits_commit change h.seen_le hawaits
  obtain ⟨next, hnext⟩ := Option.ne_none_iff_exists'.1 hnext
  have hfor : Engine.orderFor site = some (.install site.id next) := by
    rw [Engine.orderFor, hpaused, hnext]
    rfl
  rw [h.lastAbout_self, hfor] at hlast
  have horder : order = .install site.id next := by
    rcases hlast with hsome | ⟨hnone, -⟩
    · exact (Option.some.inj hsome).symm
    · cases hnone
  obtain ⟨found, hfound, -, -, hevents⟩ := Ledger.reschedule_eq_ok hchange
  have hnone := h.sound.ledger.isNone_plan hfound
  rcases hasks with ⟨-, hremove⟩ | ⟨text, stored, htext, -, -⟩
  · rw [hremove] at horder
    cases horder
  · rw [htext] at hnone
    rw [← hnone] at hevents
    refine h.sound.feed.awaits_publishAll h.seen_le (Or.inl ⟨.siteRescheduled site.id, ?_, rfl⟩)
    rw [hevents]
    exact List.mem_singleton_self _

/-- A site is drawn anew; what is ordered about it does not matter. -/
theorem IsUnderWay.draw (h : recovery.IsUnderWay seen (site :: rest))
    (hpaused : site.paused = false) (hnext : site.next ≠ none) {moment : Moment} {offset : Int}
    (hat : moment.IsAt offset) {change : Change Site}
    (hchange : recovery.store.ledger.reschedule moment site.id = .ok change) {orders : List Order}
    (hothers : ∀ siteId, siteId ≠ site.id →
      lastAbout orders siteId = lastAbout recovery.orders siteId)
    (hreport : .report ∉ orders) {installed : Nat} {error : Option RecoveryError} :
    ({ store := recovery.store.commit change, orders, installed, error } :
      Recovery).IsUnderWay seen rest := by
  have htracks := Ledger.tracks_reschedule h.sound.ledger hat hchange
  refine ⟨h.sound.commit htracks, Nat.le_trans h.seen_le (h.sound.feed.sent_le_publishAll _),
    (List.nodup_cons.1 h.nodup).2, ?_, hreport, ?_⟩
  · intro other hother
    exact (hothers other.id (h.ne_of_mem hother)).trans
      (h.fresh other (List.mem_cons_of_mem site hother))
  · intro siteId
    by_cases hid : siteId = site.id
    · exact Or.inl (hid ▸ h.awaits_drawn hpaused hnext hchange)
    rcases h.sound.plan_commit htracks siteId with hplan | hreplans
    · refine (h.told siteId).imp (h.sound.awaits_commit change h.seen_le)
        fun ⟨order, hasks, hlast⟩ => ⟨order, hasks.of_plan_eq hplan, ?_⟩
      rw [ahead, lastAbout_append, Engine.lastAbout_orders_cons_of_ne hid] at hlast
      rw [ahead, lastAbout_append, hothers siteId hid]
      exact hlast
    · exact Or.inl (hreplans.2 seen h.seen_le)

theorem IsUnderWay.turn (h : recovery.IsUnderWay seen (site :: rest)) {moments : Int → Moment}
    {offset : Int} (hats : ∀ siteId, (moments siteId).IsAt offset) {cut : Instant}
    (herror : (turn moments cut recovery site).error = none) :
    (turn moments cut recovery site).IsUnderWay seen rest := by
  unfold Recovery.turn at herror ⊢
  cases hbroken : recovery.error with
  | some error =>
    rw [hbroken] at herror
    exact absurd (hbroken.symm.trans herror) (Option.some_ne_none _)
  | none =>
  rw [hbroken] at herror
  cases hpaused : site.paused with
  | true => exact h.skip hpaused
  | false =>
  simp only [hpaused, Option.isSome_none, Bool.or_self, Bool.false_eq_true, if_false, refreshed]
    at herror ⊢
  cases hold : site.next.any (·.isBefore cut) with
  | true =>
    simp only [hold, if_true] at herror ⊢
    have hnext : site.next ≠ none := by
      intro hnone
      rw [hnone] at hold
      cases hold
    cases hchange : recovery.store.ledger.reschedule (moments site.id) site.id with
    | error refusal =>
      rw [Store.perform_of_refused hchange] at herror
      cases herror
    | ok change =>
      rw [Store.perform_of_ok hchange]
      obtain ⟨found, hfound, hresult, -, -⟩ := Ledger.reschedule_eq_ok hchange
      obtain ⟨hid, -⟩ := h.sound.ledger.of_site hfound
      have hidResult : change.result.id = site.id := by rw [hresult]; exact hid
      simp only
      cases change.result.next with
      | none => exact h.draw hpaused hnext (hats site.id) hchange (fun _ _ => rfl) h.report
      | some next =>
        refine h.draw hpaused hnext (hats site.id) hchange (fun siteId hne => ?_) fun hmem => ?_
        · rw [lastAbout_append, lastAbout_singleton, if_neg, Option.none_or]
          intro heq
          rw [hidResult] at heq
          exact hne (Option.some.inj heq).symm
        · rcases List.mem_append.1 hmem with hmem | hmem
          · exact h.report hmem
          · cases List.mem_singleton.1 hmem
  | false =>
    simp only [Bool.false_eq_true, if_false]
    cases hnext : site.next with
    | none => exact h.install (by simp [Engine.orderFor, hpaused, hnext])
    | some next => exact h.install (by simp [Engine.orderFor, hpaused, hnext])

theorem error_of_foldl {moments : Int → Moment} {cut : Instant} (sites : List Site)
    (h : (sites.foldl (Recovery.turn moments cut) recovery).error = none) :
    recovery.error = none := by
  induction sites generalizing recovery with
  | nil => exact h
  | cons site rest ih =>
    have hturn := ih h
    unfold Recovery.turn at hturn
    cases hbroken : recovery.error with
    | none => rfl
    | some error =>
      rw [hbroken] at hturn
      exact hbroken.symm.trans hturn

theorem IsUnderWay.foldl {sites : List Site} (h : recovery.IsUnderWay seen sites)
    {moments : Int → Moment} {offset : Int} (hats : ∀ siteId, (moments siteId).IsAt offset)
    {cut : Instant} (herror : (sites.foldl (Recovery.turn moments cut) recovery).error = none) :
    (sites.foldl (Recovery.turn moments cut) recovery).IsUnderWay seen [] := by
  induction sites generalizing recovery with
  | nil => exact h
  | cons site rest ih => exact ih (h.turn hats (error_of_foldl rest herror)) herror

end

end Recovery

namespace Engine

/-- An engine starts when the recovery has not broken off. -/
theorem start_of_recovered {σ : Type} {around : Surroundings σ} {moment : Moment}
    {moments : Int → Moment} {grace : Nat} {recovery : Recovery}
    (hrecovery : Recovery.ofStore around.store moment moments grace = recovery)
    (herror : recovery.error = none) :
    Workshop.start ⟨around, []⟩ moment moments grace =
      (.ok (), ⟨{ around with store := recovery.store }, [(none, {
        jobs := { grace }, orders := recovery.orders
        follower := some {
          seen := around.store.feed.sent, nextResync := around.time + resyncInterval } })]⟩) := by
  unfold Workshop.start
  simp only [hrecovery, herror]
  rfl

end Engine

end KeepAlive

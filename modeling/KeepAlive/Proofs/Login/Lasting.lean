import KeepAlive.Proofs.Login.Rounds

/-!
# How long an attempt lasts

With a server that answers at once, only the pauses of an attempt take time: those of the search,
those after each fill and click of the script, and those of the look at the url.  Each of the two
loops makes as many pauses as cover its timeout, and asks once more than it pauses.
-/

namespace KeepAlive.Login

open Browser

/-- The pauses that cover the timeout of the search. -/
def Timing.searchPauses (timing : Timing) : Nat :=
  timing.discoveryTimeout ⌈/⌉ timing.discoveryInterval

/-- The pauses that cover the timeout of the look at the url. -/
def Timing.lookPauses (timing : Timing) : Nat :=
  timing.successTimeout ⌈/⌉ timing.successPoll

/-- The number of fills and clicks in a script. -/
def touches (commands : List Script.Command) : Nat :=
  commands.countP (·.notFound?.isSome)

/-- The commands that an attempt runs, if it comes to that. -/
def Request.commands (request : Request) : List Script.Command :=
  match request.script with
  | none => standardCommands
  | some source =>
    match Script.parse source with
    | .ok commands => commands
    | .error _ => []

/-- What is run after the search, by the answer that decides. -/
def Prepared.ofSearch : Except Locators Locators → Except Verdict Prepared
  | .ok found => .ok ⟨standardCommands, found⟩
  | .error found => .error (.undiscovered found)

/-- The verdict of the look at the url, by the url that decides. -/
def Verdict.ofLook : Except String String → Verdict
  | .ok _ => .success
  | .error current => .elsewhere current

section Scripts

variable {σ : Type} {server : Server σ} {setting : Script.Setting} {scene last : Scene σ}
  {command : Script.Command} {commands : List Script.Command} {call : Call} {events : List Happening}

theorem isFree_of_call? (h : command.call? setting = some call) : call.IsFree := by
  cases command with
  | onField field explicit =>
    cases field with
    | username | password | submitButton =>
      obtain ⟨locator, -, rfl⟩ := Option.map_eq_some_iff.1 h
      trivial
  | fillText | clickButton | openUrl | wait =>
    cases h
    trivial

theorem touches_cons (command : Script.Command) (commands : List Script.Command) :
    touches (command :: commands) =
      (if command.notFound?.isSome then 1 else 0) + touches commands := by
  unfold touches
  rw [List.countP_cons, Nat.add_comm]

/-- Commands that are carried out cost a pause for each fill and click. -/
theorem effort_carriedOut (h : Script.CarriedOut server setting scene commands events last) :
    effortOf events = ⟨0, 0, touches commands * setting.settle⟩ := by
  induction h with
  | none scene => simp [touches]; exact Eq.refl _
  | @next scene last command rest call answer events hcall hreply hrest ih =>
    rw [List.cons_append, effortOf_called (isFree_of_call? hcall), effortOf_append, ih, touches_cons]
    unfold Script.Command.pauses
    split
    · rw [effortOf_paused, effortOf_nil, Effort.add_zero, Nat.add_mul, Nat.one_mul]
      exact Eq.refl _
    · rw [effortOf_nil, Effort.zero_add, Nat.zero_add]

/-- What a script ends with costs nothing. -/
theorem effort_ends {result : Except Stop (Except Script.Stopped Unit)}
    (h : Script.Ends server setting scene commands events result last) : effortOf events = 0 := by
  cases h with
  | complete => rfl
  | early hobstructed =>
    cases hobstructed with
    | unknownPlace => rfl
    | unreachable hcall | refused hcall | crashed hcall =>
      exact effortOf_called (isFree_of_call? hcall) []

end Scripts

section Parts

variable {σ : Type} (server : Server σ) (scene : Scene σ)

theorem effort_firstVisible (candidates : List Form.Candidate) :
    effortOf ((Form.firstVisible candidates).events server scene) = 0 := by
  apply Effort.le_zero_iff.1
  induction candidates generalizing scene with
  | nil => exact Effort.le_refl 0
  | cons candidate rest ih =>
    refine Session.effort_bind_le_of_free (Session.effort_call ?_) ?_
    · trivial
    · rintro (_ | _) last _
      · exact ih last
      · exact Effort.le_refl 0

theorem effort_findIn (document : Markup.Document) (fields : List Field) (found : Locators) :
    effortOf ((Form.findIn document fields found).events server scene) = 0 := by
  apply Effort.le_zero_iff.1
  induction fields generalizing scene found with
  | nil => exact Effort.le_refl 0
  | cons field rest ih =>
    apply Session.effort_bind_le_of_free (effort_firstVisible server scene _)
    intro locator last _
    exact ih last _

/-- A search asks for the markup of the page once, whatever comes of it. -/
theorem effort_find : effortOf (Form.find.events server scene) = ⟨1, 0, 0⟩ := by
  have hmarkup : effortOf ((Session.call .pageMarkup).events server scene) = ⟨1, 0, 0⟩ := by
    rfl
  unfold Form.find
  rw [Session.events_bind, effortOf_append, hmarkup]
  rcases (Session.call .pageMarkup).after server scene with ⟨stop | markup, last⟩
  · rfl
  · dsimp only
    rw [effort_findIn]
    rfl

theorem effort_run (setting : Script.Setting) (commands : List Script.Command) :
    effortOf ((Script.run setting commands).events server scene) ≤
        ⟨0, 0, touches commands * setting.settle⟩ ∧
      ∀ last, (Script.run setting commands).Yields server scene (.ok ()) last →
        effortOf ((Script.run setting commands).events server scene) =
          ⟨0, 0, touches commands * setting.settle⟩ := by
  obtain ⟨done, rest, events, middle, more, result, final, rfl, hdone, hends, hevents, hafter⟩ :=
    Script.exists_carriedOut_run server setting commands scene
  rw [hevents, effortOf_append, effort_carriedOut hdone, effort_ends hends, Effort.add_zero]
  have hfewer : touches done ≤ touches (done ++ rest) := by
    unfold touches
    rw [List.countP_append]
    exact Nat.le_add_right _ _
  constructor
  · exact ⟨Nat.le_refl _, Nat.le_refl _, Nat.mul_le_mul_right _ hfewer⟩
  · intro last hyields
    rw [Session.Yields, hafter, Prod.mk.injEq] at hyields
    obtain ⟨rfl, -⟩ := hyields
    cases hends with
    | complete => rw [List.append_nil]
    | early hobstructed => cases hobstructed

end Parts

section Stages

variable {α σ : Type} {server : Server σ} {probe : Session α} {isGood : α → Bool} {timing : Timing}
  {request : Request} {scene last : Scene σ} {searches looks : Nat}

/-- The search of a site without a script makes no more pauses than cover its timeout, and exactly
those if it finds too little. -/
theorem exists_count_of_prepare (hserver : AnswersAtOnce server)
    (hinterval : 0 < timing.discoveryInterval) (hscript : request.script = none)
    (hshown : IsShowable (scene.now + timing.discoveryInterval * timing.searchPauses)) :
    ∃ count ≤ timing.searchPauses,
      effortOf ((prepare timing request).events server scene) ≤
        roundsEffort 1 0 timing.discoveryInterval count ∧
      ∀ result last, (prepare timing request).Yields server scene result last →
        effortOf ((prepare timing request).events server scene) =
          roundsEffort 1 0 timing.discoveryInterval count ∧
        ∀ found, result = .error (.undiscovered found) → count = timing.searchPauses := by
  have hprepare : prepare timing request = deadline timing.discoveryTimeout >>= fun limit =>
      poll Form.find (idle timing.discoveryInterval) Locators.isComplete limit
        (pausesWithin timing.discoveryTimeout timing.discoveryInterval) >>= fun answer =>
      pure (Prepared.ofSearch answer) := by
    unfold prepare
    rw [hscript]
    dsimp only
    refine congrArg _ (funext fun limit => congrArg _ (funext fun answer => ?_))
    cases answer with
    | ok found => rfl
    | error found => rfl
  obtain ⟨count, hcount, hle, heq⟩ := exists_count_of_deadline_poll hserver hinterval
    (effort_find server) hshown _
  rw [hprepare]
  refine ⟨count, hcount, hle, ?_⟩
  intro result last hresult
  obtain ⟨heffort, hend⟩ := heq result last hresult
  refine ⟨heffort, ?_⟩
  rintro found rfl
  rcases hend with ⟨answer, hanswer⟩ | ⟨answer, -, hall⟩
  · cases hanswer
  · exact hall

/-- A site's own script is searched for at most once, and no time passes. -/
theorem effort_prepare_of_script {source : String} (hscript : request.script = some source) :
    effortOf ((prepare timing request).events server scene) ≤ ⟨1, 0, 0⟩ ∧
      ∀ found last,
        ¬(prepare timing request).Yields server scene (.error (.undiscovered found)) last := by
  unfold prepare
  rw [hscript]
  dsimp only
  cases Script.parse source with
  | error problem =>
    refine ⟨Effort.zero_le _, ?_⟩
    intro found last hyields
    cases (Session.yields_pure_iff.1 hyields).1
  | ok commands =>
    dsimp only
    split
    · constructor
      · rw [← Effort.add_zero ⟨1, 0, 0⟩]
        exact Session.effort_bind_le (Effort.le_of_eq (effort_find server scene))
          fun _ _ _ => Effort.le_refl 0
      · intro found last hyields
        obtain ⟨locators, middle, -, hrest⟩ := Session.yields_bind_iff.1 hyields
        cases (Session.yields_pure_iff.1 hrest).1
    · refine ⟨Effort.zero_le _, ?_⟩
      intro found last hyields
      rw [pure_bind] at hyields
      cases (Session.yields_pure_iff.1 hyields).1

/-- The search costs no more than its timeout, and it is made once more than it pauses.  If it finds
too little, its pauses are all that cover the timeout. -/
theorem effort_prepare (hserver : AnswersAtOnce server) (hinterval : 0 < timing.discoveryInterval)
    (hshown : request.script = none →
      IsShowable (scene.now + timing.discoveryInterval * timing.searchPauses)) :
    effortOf ((prepare timing request).events server scene) ≤
        ⟨timing.searchPauses + 1, 0, timing.discoveryInterval * timing.searchPauses⟩ ∧
      ∀ result last, (prepare timing request).Yields server scene result last →
        (effortOf ((prepare timing request).events server scene)).time = timing.discoveryInterval *
          ((effortOf ((prepare timing request).events server scene)).searches - 1) ∧
        ∀ found, result = .error (.undiscovered found) →
          (effortOf ((prepare timing request).events server scene)).time =
            timing.discoveryInterval * timing.searchPauses := by
  cases hscript : request.script with
  | none =>
    obtain ⟨count, hcount, hle, heq⟩ :=
      exists_count_of_prepare hserver hinterval hscript (hshown hscript)
    have htime : count * timing.discoveryInterval ≤
        timing.discoveryInterval * timing.searchPauses := by
      rw [Nat.mul_comm]
      exact Nat.mul_le_mul_left _ hcount
    constructor
    · refine ⟨Nat.le_trans hle.1 ?_, Nat.le_trans hle.2.1 ?_, Nat.le_trans hle.2.2 htime⟩
      · simp [roundsEffort, hcount]
      · simp [roundsEffort]
    · intro result last hresult
      obtain ⟨heffort, hend⟩ := heq result last hresult
      rw [heffort]
      constructor
      · simp [roundsEffort, Nat.mul_comm]
      · intro found hfound
        simp [roundsEffort, hend found hfound, Nat.mul_comm]
  | some source =>
    obtain ⟨⟨hsearches, hlooks, htime⟩, hnever⟩ := effort_prepare_of_script hscript
    constructor
    · exact ⟨Nat.le_trans hsearches (Nat.le_add_left 1 _), hlooks, Nat.le_trans htime (Nat.zero_le _)⟩
    · intro result last hresult
      constructor
      · rw [Nat.le_zero.1 htime, Nat.sub_eq_zero_of_le hsearches, Nat.mul_zero]
      · rintro found rfl
        exact absurd hresult (hnever found last)

theorem commands_of_prepares {prepared : Prepared}
    (h : Prepares server timing request scene (.ok prepared) last) :
    prepared.commands = request.commands := by
  unfold Request.commands
  cases h with
  | discovered hscript => rw [hscript]
  | searched hscript hparse | given hscript hparse =>
    rw [hscript]
    dsimp only
    rw [hparse]

/-- What is done once the script is prepared costs a pause for each fill and click. -/
theorem effort_fill (hserver : AnswersAtOnce server) (hinterval : 0 < timing.discoveryInterval)
    (hshown : request.script = none →
      IsShowable (scene.now + timing.discoveryInterval * timing.searchPauses)) :
    effortOf ((fill timing request).events server scene) ≤
        ⟨timing.searchPauses + 1, 0, timing.discoveryInterval * timing.searchPauses +
          touches request.commands * timing.settle⟩ ∧
      (∀ last, (fill timing request).Yields server scene (.ok ()) last →
        (effortOf ((fill timing request).events server scene)).time = timing.discoveryInterval *
            ((effortOf ((fill timing request).events server scene)).searches - 1) +
          touches request.commands * timing.settle) ∧
      ∀ found last, (fill timing request).Yields server scene (.error (.undiscovered found)) last →
        (effortOf ((fill timing request).events server scene)).time =
          timing.discoveryInterval * timing.searchPauses := by
  obtain ⟨hle, heq⟩ := effort_prepare hserver hinterval hshown
  have hcommands {prepared : Prepared} {middle : Scene σ}
      (h : (prepare timing request).Yields server scene (.ok prepared) middle) :
      prepared.commands = request.commands :=
    commands_of_prepares ((prepare_yields_iff hinterval).1 h)
  unfold fill
  refine ⟨?_, ?_, ?_⟩
  · have hsum : (⟨timing.searchPauses + 1, 0, timing.discoveryInterval * timing.searchPauses +
        touches request.commands * timing.settle⟩ : Effort) =
          ⟨timing.searchPauses + 1, 0, timing.discoveryInterval * timing.searchPauses⟩ +
            (⟨0, 0, touches request.commands * timing.settle⟩ + 0) := Eq.refl _
    rw [hsum]
    apply Session.effort_bind_le hle
    rintro (verdict | prepared) middle hprepared
    · exact Effort.zero_le _
    · rw [← hcommands hprepared]
      apply Session.effort_bind_le (effort_run server middle _ prepared.commands).1
      rintro (stop | ⟨⟩) _ _
      · exact Effort.le_refl 0
      · exact Effort.le_refl 0
  · intro last hyields
    obtain ⟨prepared, middle, hprepared, hrest⟩ := Session.yields_bind_iff.1 hyields
    rw [hprepared.effort_bind]
    cases prepared with
    | error verdict => cases (Session.yields_pure_iff.1 hrest).1
    | ok prepared =>
      obtain ⟨result, final, hrun, hend⟩ := Session.yields_bind_iff.1 hrest
      dsimp only
      rw [hrun.effort_bind]
      rcases result with stop | ⟨⟩
      · cases (Session.yields_pure_iff.1 hend).1
      · rw [(effort_run server middle _ prepared.commands).2 final hrun, hcommands hprepared]
        dsimp only
        rw [Session.events_pure, effortOf_nil, Effort.add_zero, Effort.time_add, Effort.searches_add,
          (heq _ middle hprepared).1]
        rfl
  · intro found last hyields
    obtain ⟨prepared, middle, hprepared, hrest⟩ := Session.yields_bind_iff.1 hyields
    rw [hprepared.effort_bind]
    cases prepared with
    | error verdict =>
      cases (Session.yields_pure_iff.1 hrest).1
      rw [Effort.time_add, (heq _ middle hprepared).2 found rfl]
      rfl
    | ok prepared =>
      obtain ⟨result, final, hrun, hend⟩ := Session.yields_bind_iff.1 hrest
      rcases result with stop | ⟨⟩
      · cases (Session.yields_pure_iff.1 hend).1
      · cases (Session.yields_pure_iff.1 hend).1

/-- The look at the url costs no more than its timeout, and all of it if the url is another one. -/
theorem effort_look (hserver : AnswersAtOnce server) (hpoll : 0 < timing.successPoll)
    (hshown : ∀ landed, (Session.call (.openUrl request.successUrl)).Yields server scene () landed →
      IsShowable (landed.now + timing.successPoll * timing.lookPauses)) :
    effortOf ((look timing request).events server scene) ≤
        ⟨0, timing.lookPauses + 1, timing.successPoll * timing.lookPauses⟩ ∧
      ∀ current last, (look timing request).Yields server scene (.elsewhere current) last →
        (effortOf ((look timing request).events server scene)).time =
          timing.successPoll * timing.lookPauses := by
  have hlook : look timing request = Session.call (.openUrl request.successUrl) >>= fun _ =>
      deadline timing.successTimeout >>= fun limit =>
        poll (Session.call .currentUrl) (idle timing.successPoll) (urlsMatch · request.successUrl)
          limit (pausesWithin timing.successTimeout timing.successPoll) >>= fun answer =>
        pure (Verdict.ofLook answer) := by
    unfold look
    refine congrArg _ (funext fun _ => congrArg _ (funext fun limit => congrArg _
      (funext fun answer => ?_)))
    cases answer with
    | ok current => rfl
    | error current => rfl
  have hopen : effortOf ((Session.call (.openUrl request.successUrl)).events server scene) = 0 :=
    Session.effort_call trivial
  have hurl (scene : Scene σ) :
      effortOf ((Session.call .currentUrl).events server scene) = ⟨0, 1, 0⟩ := by
    rfl
  rw [hlook]
  constructor
  · apply Session.effort_bind_le_of_free hopen
    intro _ landed hlanded
    obtain ⟨count, hcount, hle, -⟩ :=
      exists_count_of_deadline_poll hserver hpoll hurl (hshown landed hlanded) _
    refine ⟨Nat.le_trans hle.1 ?_, Nat.le_trans hle.2.1 ?_, Nat.le_trans hle.2.2 ?_⟩
    · simp [roundsEffort]
    · exact Nat.le_trans (Nat.le_of_eq (Nat.mul_one _)) (Nat.succ_le_succ hcount)
    · rw [Nat.mul_comm]
      exact Nat.mul_le_mul_right _ hcount
  · intro current last hyields
    obtain ⟨⟨⟩, landed, hlanded, hrest⟩ := Session.yields_bind_iff.1 hyields
    obtain ⟨count, -, -, heq⟩ :=
      exists_count_of_deadline_poll hserver hpoll hurl (hshown landed hlanded) _
    obtain ⟨heffort, hend⟩ := heq _ last hrest
    rw [hlanded.effort_bind, hopen, Effort.zero_add, heffort]
    rcases hend with ⟨answer, hanswer⟩ | ⟨answer, -, rfl⟩
    · cases hanswer
    · exact Nat.mul_comm _ _

end Stages

/-! ## Whole logins -/

/-- The time that an attempt with this many fills and clicks takes at most. -/
def Timing.longest (timing : Timing) (count : Nat) : Nat :=
  timing.discoveryInterval * timing.searchPauses + count * timing.settle +
    timing.successPoll * timing.lookPauses

section Logins

variable {σ : Type} {server : Server σ} {timing : Timing} {request : Request}
  {scene opened last : Scene σ}

/-- What an attempt that comes to a verdict costs is what filling in the form and the look at the
url cost. -/
theorem exists_effort_of_judged {verdict : Verdict}
    (h : (judged timing request).Yields server scene verdict last) :
    ∃ ready filled middle, Shows server request scene ready ∧
      (fill timing request).Yields server ready filled middle ∧
      match filled with
      | .error other => verdict = other ∧ effortOf ((judged timing request).events server scene) =
          effortOf ((fill timing request).events server ready)
      | .ok () => (look timing request).Yields server middle verdict last ∧
          effortOf ((judged timing request).events server scene) =
            effortOf ((fill timing request).events server ready) +
              effortOf ((look timing request).events server middle) := by
  unfold judged at h ⊢
  obtain ⟨⟨⟩, page, hpage, h⟩ := Session.yields_bind_iff.1 h
  obtain ⟨⟨⟩, ready, hready, h⟩ := Session.yields_bind_iff.1 h
  obtain ⟨filled, middle, hfilled, h⟩ := Session.yields_bind_iff.1 h
  have hopen : effortOf ((Session.call (.openUrl request.url)).events server scene) = 0 :=
    Session.effort_call trivial
  have hdismiss : effortOf ((Session.callAnyway .solveCaptcha).events server page) = 0 :=
    Session.effort_callAnyway trivial
  refine ⟨ready, filled, middle, ⟨page, hpage, hready⟩, hfilled, ?_⟩
  rw [hpage.effort_bind, hready.effort_bind, hfilled.effort_bind, hopen, hdismiss, Effort.zero_add,
    Effort.zero_add]
  rcases filled with other | ⟨⟩
  · exact ⟨(Session.yields_pure_iff.1 h).1, Effort.add_zero _⟩
  · exact ⟨h, Eq.refl _⟩

/-- What an attempt up to its verdict costs at most, and what it costs exactly where the search or the
look at the url takes all the time that it has. -/
theorem effort_judged (hserver : AnswersAtOnce server) (hdiscovery : 0 < timing.discoveryInterval)
    (hpoll : 0 < timing.successPoll) (hopened : (Session.call .connect).Yields server scene () opened)
    (hdeadlines : CanSetDeadlines server timing request scene
      (timing.discoveryInterval * timing.searchPauses) (timing.successPoll * timing.lookPauses)) :
    effortOf ((judged timing request).events server opened) ≤
        ⟨timing.searchPauses + 1, timing.lookPauses + 1, timing.longest (touches request.commands)⟩ ∧
      (∀ found last, (judged timing request).Yields server opened (.undiscovered found) last →
        (effortOf ((judged timing request).events server opened)).time =
          timing.discoveryInterval * timing.searchPauses) ∧
      ∀ current last, (judged timing request).Yields server opened (.elsewhere current) last →
        (effortOf ((judged timing request).events server opened)).time = timing.discoveryInterval *
            ((effortOf ((judged timing request).events server opened)).searches - 1) +
          touches request.commands * timing.settle + timing.successPoll * timing.lookPauses := by
  have hfill (ready : Scene σ) (hshows : Shows server request opened ready) :=
    effort_fill hserver hdiscovery (hdeadlines.search opened ready hopened hshows)
  have hlook (ready filled : Scene σ) (hshows : Shows server request opened ready)
      (hfilled : (fill timing request).Yields server ready (.ok ()) filled) :=
    effort_look hserver hpoll fun landed =>
      hdeadlines.look opened filled landed hopened
        ((runs_ok_iff hdiscovery).2 ⟨ready, hshows, hfilled⟩)
  refine ⟨?_, ?_, ?_⟩
  · have hsum : (⟨timing.searchPauses + 1, timing.lookPauses + 1,
        timing.longest (touches request.commands)⟩ : Effort) =
          ⟨timing.searchPauses + 1, 0, timing.discoveryInterval * timing.searchPauses +
            touches request.commands * timing.settle⟩ +
          ⟨0, timing.lookPauses + 1, timing.successPoll * timing.lookPauses⟩ := by
      rw [Effort.mk_add_mk, Nat.zero_add]
      rfl
    rw [hsum]
    unfold judged
    refine Session.effort_bind_le_of_free (Session.effort_call (by trivial)) ?_
    intro _ page hpage
    refine Session.effort_bind_le_of_free (Session.effort_callAnyway (by trivial)) ?_
    intro _ ready hready
    have hshows : Shows server request opened ready := ⟨page, hpage, hready⟩
    apply Session.effort_bind_le (hfill ready hshows).1
    rintro (verdict | ⟨⟩) filled hfilled
    · exact Effort.zero_le _
    · exact (hlook ready filled hshows hfilled).1
  · intro found last hjudged
    obtain ⟨ready, filled, middle, hshows, hfilled, hrest⟩ := exists_effort_of_judged hjudged
    rcases filled with other | ⟨⟩
    · obtain ⟨rfl, heffort⟩ := hrest
      rw [heffort, (hfill ready hshows).2.2 found middle hfilled]
    · obtain ⟨current, -, hverdict⟩ := (look_yields_iff hpoll).1 hrest.1
      split at hverdict <;> cases hverdict
  · intro current last hjudged
    obtain ⟨ready, filled, middle, hshows, hfilled, hrest⟩ := exists_effort_of_judged hjudged
    rcases filled with other | ⟨⟩
    · obtain ⟨rfl, -⟩ := hrest
      rcases (fill_yields_iff hdiscovery).1 hfilled with
        ⟨verdict, hverdict, hprepares⟩ | ⟨prepared, start, result, -, -, hresult⟩
      · cases hverdict
        nomatch hprepares
      · rcases result with stop | ⟨⟩ <;> cases hresult
    · obtain ⟨hyields, heffort⟩ := hrest
      obtain ⟨hlooks, hlooked⟩ := hlook ready middle hshows hfilled
      rw [heffort, Effort.time_add, Effort.searches_add, Nat.le_zero.1 hlooks.1, Nat.add_zero,
        (hfill ready hshows).2.1 middle hfilled, hlooked current last hyields]

theorem effort_classified (outcome : Outcome) (scene : Scene σ) :
    effortOf ((classified request outcome).events server scene) = 0 := by
  unfold classified
  cases request.screenshotId with
  | none => rfl
  | some id =>
    dsimp only
    rw [Session.effort_bind_eq_left fun _ _ => Eq.refl 0]
    exact Session.effort_callAnyway trivial

/-- A login costs what its attempt costs up to the verdict. -/
theorem effort_login (hopened : (Session.call .connect).Yields server scene () opened) :
    effortOf ((login timing request).events server scene) =
      effortOf ((judged timing request).events server opened) := by
  have hconnect := Session.yields_tryCall_ok_iff.2 hopened
  have hconnected : effortOf ((Session.tryCall .connect).events server scene) = 0 :=
    Session.effort_tryCall trivial
  have hpicture (verdict : Verdict) (last : Scene σ) :
      effortOf ((classified request (verdict.outcome request)).events server last) = 0 :=
    effort_classified _ last
  unfold login
  rw [hconnect.effort_bind, hconnected, Effort.zero_add]
  dsimp only
  rw [Session.effort_bind_eq_left, Session.events_lift_caught, attempt_eq,
    Session.effort_bind_eq_left hpicture]
  intro ended last
  rw [Session.effort_bind_eq_left]
  · exact Session.effort_callAnyway trivial
  · intro _ _
    cases ended with
    | ok outcome => rfl
    | error stop => rfl

/-- A login that gets no session costs nothing. -/
theorem effort_login_of_unopened
    (h : ¬∃ opened, (Session.call .connect).Yields server scene () opened) :
    effortOf ((login timing request).events server scene) = 0 := by
  unfold login
  apply Effort.le_zero_iff.1
  refine Session.effort_bind_le_of_free (Session.effort_tryCall (by trivial)) ?_
  rintro (refusal | ⟨⟩) last hconnect
  · exact Effort.le_refl 0
  · exact absurd ⟨last, Session.yields_tryCall_ok_iff.1 hconnect⟩ h

/-- Where the clock can show the latest time that an attempt comes to, it can show all deadlines. -/
theorem canSetDeadlines_of_isShowable (hserver : AnswersAtOnce server)
    (hdiscovery : 0 < timing.discoveryInterval)
    (hshown : IsShowable (scene.now + timing.longest (touches request.commands))) :
    CanSetDeadlines server timing request scene (timing.discoveryInterval * timing.searchPauses)
      (timing.successPoll * timing.lookPauses) := by
  have hcall {call : Call} {scene last : Scene σ} {answer : call.Answer}
      (h : (Session.call call).Yields server scene answer last) : last.now = scene.now := by
    obtain ⟨-, rfl⟩ := Session.yields_call_iff.1 h
    exact congrArg (scene.now + ·) (hserver call scene.browser)
  have hready {place ready : Scene σ} (hplace : (Session.call .connect).Yields server scene () place)
      (hshows : Shows server request place ready) : ready.now = scene.now := by
    obtain ⟨page, hpage, hdismiss⟩ := hshows
    obtain ⟨-, rfl⟩ := Session.yields_callAnyway_iff.1 hdismiss
    rw [← hcall hplace, ← hcall hpage]
    exact congrArg (page.now + ·) (hserver .solveCaptcha page.browser)
  unfold Timing.longest at hshown
  have hsearch (place ready : Scene σ) (hplace : (Session.call .connect).Yields server scene () place)
      (hshows : Shows server request place ready) :
      IsShowable (ready.now + timing.discoveryInterval * timing.searchPauses) := by
    rw [hready hplace hshows]
    exact hshown.mono (by omega)
  refine ⟨fun place ready hplace hshows _ => hsearch place ready hplace hshows, ?_⟩
  intro place filled landed hplace hruns hlanded
  obtain ⟨ready, hshows, hfilled⟩ := (runs_ok_iff hdiscovery).1 hruns
  have hset : request.script = none →
      IsShowable (ready.now + timing.discoveryInterval * timing.searchPauses) :=
    fun _ => hsearch place ready hplace hshows
  have htime := (effort_fill hserver hdiscovery hset).1.2.2
  dsimp only at htime
  rw [hcall hlanded, hfilled.now_eq hserver, hready hplace hshows]
  exact hshown.mono (by omega)

/-- A login ends: both its loops end by themselves, so that more pauses than fit into their timeouts
make no difference.  With a server that answers at once, and as long as the clock can show the ends
of the last pauses, the loops ask once more than it takes pauses to cover their timeouts, and all
takes no longer than these pauses and one for each fill and click.  A search that finds too little
takes exactly its pauses; a login that ends up on another url takes those that its search has made,
those of its script and all of the look at the url. -/
theorem lasts_no_longer_than_its_pauses (server : Server σ) (timing : Timing) (request : Request)
    (scene : Scene σ) (hserver : AnswersAtOnce server) (hdiscovery : 0 < timing.discoveryInterval)
    (hpoll : 0 < timing.successPoll)
    (hdeadlines : CanSetDeadlines server timing request scene
      (timing.discoveryInterval * timing.searchPauses) (timing.successPoll * timing.lookPauses)) :
    let effort := effortOf ((login timing request).events server scene)
    let last := ((login timing request).after server scene).2
    let count := touches request.commands
    (∀ start : Scene σ, ∀ pauses,
      (pausesWithin timing.discoveryTimeout timing.discoveryInterval ≤ pauses →
        Session.Alike server start (discover timing (start.now + timing.discoveryTimeout) pauses)
          (discover timing (start.now + timing.discoveryTimeout)
            (pausesWithin timing.discoveryTimeout timing.discoveryInterval))) ∧
      (pausesWithin timing.successTimeout timing.successPoll ≤ pauses →
        Session.Alike server start
          (Session.call .currentUrl >>=
            awaitUrl timing request.successUrl (start.now + timing.successTimeout) pauses)
          (Session.call .currentUrl >>=
            awaitUrl timing request.successUrl (start.now + timing.successTimeout)
              (pausesWithin timing.successTimeout timing.successPoll)))) ∧
    effort.searches ≤ timing.searchPauses + 1 ∧ effort.looks ≤ timing.lookPauses + 1 ∧
    last.now ≤ scene.now + timing.longest count ∧
    ∀ opened reached, (Session.call .connect).Yields server scene () opened →
      (∀ found, Reaches server timing request opened (.undiscovered found) reached →
        last.now = scene.now + timing.discoveryInterval * timing.searchPauses) ∧
      ∀ current, Reaches server timing request opened (.elsewhere current) reached →
        last.now = scene.now + (timing.discoveryInterval * (effort.searches - 1) +
          count * timing.settle + timing.successPoll * timing.lookPauses) := by
  intro effort last count
  refine ⟨fun start pauses => ⟨alike_discover hdiscovery, alike_awaitUrl _ hpoll⟩, ?_⟩
  have hnow : last.now = scene.now + effort.time := Session.now_after_eq hserver _ scene
  by_cases hopened : ∃ opened, (Session.call .connect).Yields server scene () opened
  · obtain ⟨opened, hopened⟩ := hopened
    have heffort : effort = effortOf ((judged timing request).events server opened) :=
      effort_login hopened
    obtain ⟨⟨hsearches, hlooks, htime⟩, hundiscovered, helsewhere⟩ :=
      effort_judged hserver hdiscovery hpoll hopened hdeadlines
    rw [hnow, heffort]
    refine ⟨hsearches, hlooks, Nat.add_le_add_left htime _, ?_⟩
    intro place reached hplace
    obtain ⟨-, rfl⟩ := hplace.unique hopened
    constructor
    · intro found hreaches
      rw [hundiscovered found reached ((judged_yields_iff hdiscovery hpoll).2 hreaches)]
    · intro current hreaches
      rw [helsewhere current reached ((judged_yields_iff hdiscovery hpoll).2 hreaches)]
  · have heffort : effort = 0 := effort_login_of_unopened hopened
    rw [hnow, heffort]
    refine ⟨Nat.zero_le _, Nat.zero_le _, Nat.add_le_add_left (Nat.zero_le _) _, ?_⟩
    intro opened reached hplace
    exact absurd ⟨opened, hplace⟩ hopened

theorem answersAtOnce_page : AnswersAtOnce Page.handle := by
  intro call page
  cases call with
  | fillText locator value =>
    simp only [Page.handle]
    split <;> rfl
  | clickButton locator =>
    simp only [Page.handle]
    split
    · rfl
    · split <;> rfl
  | connect | openUrl | wait | currentUrl | pageMarkup | isVisible | hasElement | saveScreenshot
  | solveCaptcha | disconnect => rfl

/-- Four pauses of 300 ms cover a second of searching, and two of 700 ms a second of looking. -/
theorem lasts_on_page_without_form :
    let page : Page :=
      { fixture :=
        { pages := [("", "<p>We are closed.</p>")]
          redirects := [("https://a.example/home", "https://a.example/login")] } }
    let timing : Timing := ⟨1000, 300, 1000, 700, 500, 60000⟩
    let bare : Request :=
      { url := "https://a.example/login", successUrl := "https://a.example/home"
        credentials := ⟨"alice", "secret"⟩ }
    let scripted : Request := { bare with script := some "wait(100)" }
    AnswersAtOnce Page.handle ∧
      (effortOf ((login timing bare).events Page.handle ⟨page, 0⟩)).searches ≤ 5 ∧
      ((login timing bare).after Page.handle ⟨page, 0⟩).2.now = 1200 ∧
      ((login timing scripted).after Page.handle ⟨page, 0⟩).2.now = 1400 := by
  intro page timing bare scripted
  have hdiscovery : 0 < timing.discoveryInterval := by decide
  have hpoll : 0 < timing.successPoll := by decide
  have hsearchPauses : timing.searchPauses = 4 := by decide +kernel
  have hsearchTime : 0 + timing.discoveryInterval * timing.searchPauses = 1200 := by decide +kernel
  have hlookTime : 0 + (timing.discoveryInterval * (0 - 1) +
      touches scripted.commands * timing.settle + timing.successPoll * timing.lookPauses) = 1400 := by
    decide +kernel
  have hopened : (Session.call .connect).Yields Page.handle ⟨page, 0⟩ ()
      ⟨(Page.handle .connect page).state, 0⟩ :=
    Session.yields_call_iff.2 ⟨Eq.refl _, Eq.refl _⟩
  have hbare : IsShowable (0 + timing.longest (touches bare.commands)) := by
    unfold IsShowable
    decide +kernel
  have hscripted : IsShowable (0 + timing.longest (touches scripted.commands)) := by
    unfold IsShowable
    decide +kernel
  have hsearch : (judged timing bare).Returns Page.handle ⟨(Page.handle .connect page).state, 0⟩
      (.undiscovered {}) := by
    unfold Session.Returns
    decide +kernel
  have hlook : (judged timing scripted).Returns Page.handle ⟨(Page.handle .connect page).state, 0⟩
      (.elsewhere "https://a.example/login") := by
    unfold Session.Returns
    decide +kernel
  have hsearches :
      (effortOf ((login timing scripted).events Page.handle ⟨page, 0⟩)).searches = 0 := by
    decide +kernel
  obtain ⟨found, hfound⟩ := Session.returns_iff.1 hsearch
  obtain ⟨current, hcurrent⟩ := Session.returns_iff.1 hlook
  obtain ⟨-, hmost, -, -, hundiscovered⟩ := lasts_no_longer_than_its_pauses Page.handle timing bare
    ⟨page, 0⟩ answersAtOnce_page hdiscovery hpoll
    (canSetDeadlines_of_isShowable answersAtOnce_page hdiscovery hbare)
  obtain ⟨-, -, -, -, helsewhere⟩ := lasts_no_longer_than_its_pauses Page.handle timing scripted
    ⟨page, 0⟩ answersAtOnce_page hdiscovery hpoll
    (canSetDeadlines_of_isShowable answersAtOnce_page hdiscovery hscripted)
  have hshort := (hundiscovered _ found hopened).1 {} ((judged_yields_iff hdiscovery hpoll).1 hfound)
  have hlong := (helsewhere _ current hopened).2 _ ((judged_yields_iff hdiscovery hpoll).1 hcurrent)
  rw [hsearchPauses] at hmost
  rw [hsearches] at hlong
  exact ⟨answersAtOnce_page, hmost, hshort.trans hsearchTime, hlong.trans hlookTime⟩

end Logins

end KeepAlive.Login

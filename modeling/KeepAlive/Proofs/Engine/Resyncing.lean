import KeepAlive.Proofs.Engine.Parts
import KeepAlive.Proofs.Engine.Recovering
import Mathlib.Data.List.Nodup
import Mathlib.Logic.Function.Iterate

/-!
# What a round through all sites does

The follower looks at all sites, asks which jobs wait, and sends its orders; the table carries them
out.  If nothing else happens in between, the table is then in step with the store: each site stands as
if the table had been told about it alone, and a second round finds nothing to do.  This holds of any
table to begin with.
-/

namespace KeepAlive

open Time

/-! ## One site -/

namespace Standing

/-- The site after an order has been carried out, which may be about another site. -/
def told (siteId : Int) (standing : Standing) (order : Order) : Standing :=
  match order with
  | .install site due => if siteId = site then standing.installed due else standing
  | .remove site => if siteId = site then standing.removed else standing
  | .report => standing

/-- The site after a round: as the store has it, if the store has it at all. -/
def synced (standing : Standing) : Option Site → Standing
  | none => if standing.waiting.isSome then standing.removed else standing
  | some site =>
    if site.paused then standing.removed
    else
      match site.next with
      | none => standing
      | some due => standing.installed due

theorem installed_installed (standing : Standing) (due : Instant) :
    (standing.installed due).installed due = standing.installed due := by
  unfold installed
  cases hrefused : standing.refuses due with
  | true => simp [hrefused]
  | false =>
    have hsame : refuses { standing with waiting := some due } due = false := hrefused
    simp [hsame]

/-- A second round leaves the site as the first one has left it. -/
theorem synced_synced (standing : Standing) (site? : Option Site) :
    (standing.synced site?).synced site? = standing.synced site? := by
  cases site? with
  | none =>
    by_cases hwaiting : standing.waiting.isSome = true <;> simp [synced, hwaiting, removed]
  | some site =>
    simp only [synced]
    split
    · rfl
    · split
      · rfl
      · exact installed_installed standing _

theorem waiting_synced_eq_none {site? : Option Site} (h : ∀ site ∈ site?, site.paused = true)
    (standing : Standing) : (standing.synced site?).waiting = none := by
  cases site? with
  | none =>
    by_cases hwaiting : standing.waiting.isSome = true
    · rw [synced, if_pos hwaiting, removed]
    · rw [synced, if_neg hwaiting]
      simpa using hwaiting
  | some site => rw [synced, if_pos (h site rfl), removed]

theorem synced_of_active {site : Site} (hactive : site.paused = false) {next : Instant}
    (hnext : site.next = some next) (standing : Standing) :
    standing.synced site = standing.installed next := by
  simp only [synced, hactive, hnext, Bool.false_eq_true, if_false]

theorem waiting_installed_of_later {standing : Standing} {due : Instant}
    (h : ∀ spent, standing.IsSpent spent → due.isUpTo spent = false) :
    (standing.installed due).waiting = some due := by
  refine (standing.waiting_installed due).resolve_right ?_
  rintro ⟨spent, hspent, hcovered⟩
  rw [h spent hspent] at hcovered
  cases hcovered

theorem installed_of_isSpent {standing : Standing} {due spent : Instant}
    (hspent : standing.IsSpent spent) (hcovered : due.isUpTo spent = true) :
    standing.installed due = standing := by
  have hrefused : standing.refuses due = true := by
    rw [refuses_iff]
    rcases hspent with hrunning | hended
    · exact .inl ⟨spent, hrunning, hcovered⟩
    · exact .inr ⟨spent, hended, hcovered⟩
  rw [installed, if_pos hrefused]

theorem told_of_ne {siteId : Int} {order : Order} (h : order.siteId? ≠ some siteId)
    (standing : Standing) : standing.told siteId order = standing := by
  unfold told
  cases order with
  | install site due => exact if_neg fun heq => h (congrArg some heq.symm)
  | remove site => exact if_neg fun heq => h (congrArg some heq.symm)
  | report => rfl

theorem told_told (siteId : Int) (standing : Standing) (order : Order) :
    (standing.told siteId order).told siteId order = standing.told siteId order := by
  unfold told
  cases order with
  | install site due =>
    dsimp only
    split
    · exact installed_installed standing due
    · rfl
  | remove site =>
    dsimp only
    split <;> rfl
  | report => rfl

/-- Orders that are all the same about a site do to it what one of them does. -/
theorem foldl_told_of_agree {siteId : Int} {order : Order} {orders : List Order}
    (hagree : ∀ other ∈ orders, other.siteId? = some siteId → other = order)
    (hsite : order.siteId? = some siteId) (standing : Standing) :
    (order ∈ orders → orders.foldl (told siteId) standing = standing.told siteId order) ∧
      (order ∉ orders → orders.foldl (told siteId) standing = standing) := by
  induction orders generalizing standing with
  | nil => exact ⟨fun h => absurd h List.not_mem_nil, fun _ => rfl⟩
  | cons first rest ih =>
    obtain ⟨hfirst, hrest⟩ := List.forall_mem_cons.1 hagree
    rw [List.foldl_cons]
    by_cases habout : first.siteId? = some siteId
    · obtain rfl := hfirst habout
      refine ⟨fun _ => ?_, fun h => absurd List.mem_cons_self h⟩
      by_cases hmore : first ∈ rest
      · rw [(ih hrest _).1 hmore, told_told]
      · exact (ih hrest _).2 hmore
    · have hne : order ≠ first := fun heq => habout (heq ▸ hsite)
      rw [told_of_ne habout, List.mem_cons, or_iff_right hne]
      exact ih hrest standing

end Standing

namespace Jobs

theorem standing_obey (jobs : Jobs) (order : Order) (siteId : Int) :
    (jobs.obey order).standing siteId = (jobs.standing siteId).told siteId order := by
  cases order with
  | install site due => exact standing_install jobs site siteId due
  | remove site => exact standing_remove jobs site siteId
  | report => rfl

theorem standing_foldl_obey (jobs : Jobs) (orders : List Order) (siteId : Int) :
    (orders.foldl obey jobs).standing siteId =
      orders.foldl (Standing.told siteId) (jobs.standing siteId) := by
  induction orders generalizing jobs with
  | nil => rfl
  | cons order rest ih => rw [List.foldl_cons, ih, standing_obey, List.foldl_cons]

theorem running_foldl_obey (jobs : Jobs) (orders : List Order) :
    (orders.foldl obey jobs).running = jobs.running := by
  induction orders generalizing jobs with
  | nil => rfl
  | cons order rest ih =>
    rw [List.foldl_cons, ih]
    cases order with
    | install site due =>
      rw [obey, install]
      split <;> rfl
    | remove site => rfl
    | report => rfl

theorem mem_pending_iff {jobs : Jobs} (h : jobs.waiting.IsKeyed) {siteId : Int} {due : Instant} :
    (siteId, due) ∈ jobs.pending ↔ (jobs.standing siteId).waiting = some due := by
  rw [pending, Slots.soonestFirst, List.mem_mergeSort, Slots.mem_iff_get?_eq_some h, standing]

end Jobs

namespace Slots

theorem isSooner_iff {a b : Int × Instant} : isSooner a b = true ↔
    a.2.second < b.2.second ∨ a.2.second = b.2.second ∧
      (a.2.nano < b.2.nano ∨ a.2.nano = b.2.nano ∧ a.1 ≤ b.1) := by
  obtain ⟨site, second, nano⟩ := a
  obtain ⟨other, second', nano'⟩ := b
  simp only [isSooner, Bool.or_eq_true, Bool.and_eq_true, decide_eq_true_eq, Instant.isBefore_iff,
    Instant.mk.injEq]
  omega

/-- Slots that say the same of every site are listed in the same order. -/
theorem soonestFirst_eq {slots others : Slots} (h : slots.IsKeyed) (hothers : others.IsKeyed)
    (hsame : ∀ site, slots.get? site = others.get? site) :
    slots.soonestFirst = others.soonestFirst := by
  have hperm : slots.Perm others := by
    refine (List.perm_ext_iff_of_nodup (List.Nodup.of_map Prod.fst h)
      (List.Nodup.of_map Prod.fst hothers)).2 ?_
    rintro ⟨site, instant⟩
    rw [mem_iff_get?_eq_some h, mem_iff_get?_eq_some hothers, hsame]
  have hsorted (slots : Slots) : slots.soonestFirst.Pairwise fun a b => isSooner a b = true := by
    refine List.pairwise_mergeSort (fun a b c => ?_) (fun a b => ?_) slots
    · simp only [isSooner_iff]
      omega
    · simp only [Bool.or_eq_true, isSooner_iff]
      omega
  refine List.Perm.eq_of_pairwise ?_ (hsorted slots) (hsorted others) ?_
  · rintro ⟨site, second, nano⟩ ⟨other, second', nano'⟩ - - hfirst hsecond
    simp only [isSooner_iff] at hfirst hsecond
    simp only [Prod.mk.injEq, Instant.mk.injEq]
    omega
  · exact ((List.mergeSort_perm slots isSooner).trans hperm).trans
      (List.mergeSort_perm others isSooner).symm

end Slots

/-! ## One round -/

namespace Engine

/-- The table carries out all orders that are on their way. -/
def obeyAll (engine : Engine) : Engine :=
  obey^[engine.orders.length] engine

/-- A whole round through all sites, with nothing else in between. -/
def afterRound (engine : Engine) (follower : Follower) (ledger : Ledger) : Engine :=
  (engine.beginResync follower ledger).obeyAll.endResync.obeyAll

section Round

variable {engine : Engine} {follower : Follower} {ledger : Ledger} {sites : List Site}

theorem obeyAll_eq (hfollower : engine.follower = some follower) (hreport : .report ∉ engine.orders) :
    engine.obeyAll =
      { engine with jobs := engine.orders.foldl Jobs.obey engine.jobs, orders := [] } := by
  unfold obeyAll
  generalize horders : engine.orders = orders at hreport ⊢
  induction orders generalizing engine with
  | nil =>
    cases engine
    cases horders
    rfl
  | cons order rest ih =>
    have hne : order ≠ .report := fun heq => hreport (heq ▸ List.mem_cons_self)
    have hobey := obey_eq horders hfollower
    rw [if_neg hne, ← hfollower] at hobey
    rw [List.length_cons, Function.iterate_succ_apply, hobey, List.foldl_cons]
    exact ih hfollower rfl fun hmem => hreport (List.mem_cons_of_mem order hmem)

/-- All that a round does is that the table carries out the orders that follow from the sites and the
jobs that wait; the follower is idle then. -/
theorem afterRound_eq (horders : engine.orders = []) (hall : ledger.allSites = .ok sites)
    (follower : Follower) :
    engine.afterRound follower ledger = { engine with
      jobs := (resyncOrders sites engine.jobs.pending).foldl Jobs.obey engine.jobs
      follower := some { follower with snapshot := none, report := none } } := by
  have hasked : (engine.beginResync follower ledger).obeyAll = { engine with
      follower := some { follower with
        snapshot := some sites, report := some engine.jobs.pending } } := by
    simp only [beginResync, hall, ordered, horders, obeyAll, List.nil_append, List.length_singleton,
      Function.iterate_one, obey, Jobs.obey]
  rw [afterRound, hasked]
  simp only [endResync, ordered, horders, List.nil_append]
  rw [obeyAll_eq rfl (report_not_mem_resyncOrders sites _)]

theorem told_orderFor {site : Site} {order : Order} (h : orderFor site = some order)
    (standing : Standing) : standing.told site.id order = standing.synced site := by
  rw [orderFor] at h
  by_cases hpaused : site.paused = true
  · rw [if_pos hpaused] at h
    cases h
    simp only [Standing.synced, Standing.told, if_pos hpaused, if_true]
  · rw [if_neg hpaused] at h
    obtain ⟨due, hnext, rfl⟩ := Option.map_eq_some_iff.1 h
    simp only [Standing.synced, Standing.told, if_neg hpaused, hnext, if_true]

theorem synced_of_orderFor_none {site : Site} (h : orderFor site = none) (standing : Standing) :
    standing.synced site = standing := by
  rw [orderFor] at h
  by_cases hpaused : site.paused = true
  · rw [if_pos hpaused] at h
    cases h
  · rw [if_neg hpaused] at h
    simp only [Standing.synced, if_neg hpaused, Option.map_eq_none_iff.1 h]

theorem foldl_told_of_gone {jobs : Jobs} (hkeyed : jobs.waiting.IsKeyed) {siteId : Int}
    (hgone : ∀ site ∈ sites, site.id ≠ siteId) :
    (resyncOrders sites jobs.pending).foldl (Standing.told siteId) (jobs.standing siteId) =
      (jobs.standing siteId).synced none := by
  have hagree : ∀ other ∈ resyncOrders sites jobs.pending, other.siteId? = some siteId →
      other = .remove siteId := by
    intro other hother habout
    rcases mem_resyncOrders.1 hother with ⟨slot, -, -, rfl⟩ | ⟨site, hsite, horder⟩
    · rw [Option.some.inj habout]
    · rw [siteId?_orderFor horder] at habout
      exact absurd (Option.some.inj habout) (hgone site hsite)
  obtain ⟨hremoved, hleft⟩ := Standing.foldl_told_of_agree hagree rfl (jobs.standing siteId)
  by_cases hwaiting : (jobs.standing siteId).waiting.isSome = true
  · obtain ⟨due, hdue⟩ := Option.isSome_iff_exists.1 hwaiting
    have hslot := (Jobs.mem_pending_iff hkeyed).2 hdue
    rw [hremoved (mem_resyncOrders.2 (.inl ⟨_, hslot, hgone, rfl⟩)), Standing.synced,
      if_pos hwaiting, Standing.told, if_pos rfl]
  · rw [hleft, Standing.synced, if_neg hwaiting]
    intro hmem
    rcases mem_resyncOrders.1 hmem with ⟨⟨_, due⟩, hslot, -, heq⟩ | ⟨site, hsite, horder⟩
    · cases heq
      exact hwaiting (Option.isSome_iff_exists.2 ⟨due, (Jobs.mem_pending_iff hkeyed).1 hslot⟩)
    · exact hgone site hsite (Option.some.inj (siteId?_orderFor horder)).symm

/-- All orders about a site that is there are the one that follows from it. -/
theorem orderFor_of_mem_resyncOrders (hnodup : (sites.map (·.id)).Nodup) {site : Site}
    (hsite : site ∈ sites) {waiting : Slots} {order : Order}
    (hmem : order ∈ resyncOrders sites waiting) (habout : order.siteId? = some site.id) :
    orderFor site = some order := by
  rcases mem_resyncOrders.1 hmem with ⟨slot, -, hgone, rfl⟩ | ⟨other, hother, horder⟩
  · exact absurd (Option.some.inj habout).symm (hgone site hsite)
  · rw [siteId?_orderFor horder] at habout
    rwa [Ledger.eq_of_nodup hnodup hother hsite (Option.some.inj habout)] at horder

theorem foldl_told_of_mem (hnodup : (sites.map (·.id)).Nodup) {site : Site} (hsite : site ∈ sites)
    (waiting : Slots) (standing : Standing) :
    (resyncOrders sites waiting).foldl (Standing.told site.id) standing = standing.synced site := by
  have hall {other : Order} (hother : other ∈ resyncOrders sites waiting)
      (habout : other.siteId? = some site.id) : orderFor site = some other :=
    orderFor_of_mem_resyncOrders hnodup hsite hother habout
  cases horder : orderFor site with
  | none =>
    have hnone {other : Order} (hother : other ∈ resyncOrders sites waiting)
        (habout : other.siteId? = some site.id) : other = .remove site.id := by
      rw [hall hother habout] at horder
      cases horder
    rw [synced_of_orderFor_none horder]
    refine (Standing.foldl_told_of_agree (fun _ => hnone) rfl standing).2 fun hmem => ?_
    rw [hall hmem rfl] at horder
    cases horder
  | some order =>
    rw [← told_orderFor horder]
    refine (Standing.foldl_told_of_agree ?_ (siteId?_orderFor horder) standing).1
      (mem_resyncOrders.2 (.inr ⟨site, hsite, horder⟩))
    intro other hother habout
    rw [hall hother habout] at horder
    exact Option.some.inj horder

/-- After a round each site stands as the store has it, whatever else is in the table. -/
theorem standing_afterRound (horders : engine.orders = []) (hall : ledger.allSites = .ok sites)
    (hnodup : (sites.map (·.id)).Nodup) (hkeyed : engine.jobs.waiting.IsKeyed)
    (follower : Follower) (siteId : Int) :
    (engine.afterRound follower ledger).jobs.standing siteId =
      (engine.jobs.standing siteId).synced (sites.find? (·.id = siteId)) := by
  rw [afterRound_eq horders hall, Jobs.standing_foldl_obey]
  cases hfind : sites.find? (·.id = siteId) with
  | none => exact foldl_told_of_gone hkeyed (by simpa using hfind)
  | some site =>
    obtain rfl : site.id = siteId := by simpa using List.find?_some hfind
    exact foldl_told_of_mem hnodup (List.mem_of_find?_eq_some hfind) _ _

end Round

/-- A round through all sites, with nothing else in between, brings any table in step with the store.  A
site that is gone or paused has no job; one that is not paused has its job at its next run, unless a body
of it that runs or has run covers that, and then its job is what it was.  Bodies go on running, and a
second round changes nothing. -/
theorem in_step_after_round {engine : Engine} {ledger : Ledger} (hwritten : ledger.IsWritten)
    (hyears : ledger.HasPlainYears) (horders : engine.orders = [])
    (hkeyed : engine.jobs.waiting.IsKeyed) (follower : Follower) :
    let after := engine.afterRound follower ledger
    (∃ sites, ledger.allSites = .ok sites ∧
      (∀ siteId, (∀ site ∈ sites, site.id = siteId → site.paused = true) →
        after.jobs.pending.filter (·.1 = siteId) = []) ∧
      ∀ site ∈ sites, site.paused = false → ∃ next, site.next = some next ∧
        ((∀ spent, (engine.jobs.standing site.id).IsSpent spent → next.isUpTo spent = false) →
          after.jobs.pending.filter (·.1 = site.id) = [(site.id, next)]) ∧
        ∀ spent, (engine.jobs.standing site.id).IsSpent spent → next.isUpTo spent = true →
          after.jobs.pending.filter (·.1 = site.id) =
            engine.jobs.pending.filter (·.1 = site.id)) ∧
    (after.jobs.running = engine.jobs.running ∧ after.attempts = engine.attempts ∧
      after.freed = engine.freed ∧ after.faults = engine.faults) ∧
    ∀ later : Follower, (after.afterRound later ledger).jobs.pending = after.jobs.pending ∧
      ∀ siteId, (after.afterRound later ledger).jobs.standing siteId = after.jobs.standing siteId := by
  intro after
  obtain ⟨sites, hall⟩ := hwritten.exists_allSites hyears
  have hnodup := hwritten.nodup_allSites hall
  have hafter : after = _ := afterRound_eq horders hall follower
  have horders' : after.orders = [] := by rw [hafter, horders]
  have hkeyed' : after.jobs.waiting.IsKeyed := by
    rw [hafter]
    exact Jobs.isKeyed_waiting_foldl_obey hkeyed _
  have hstanding (siteId : Int) : after.jobs.standing siteId =
      (engine.jobs.standing siteId).synced (sites.find? (·.id = siteId)) :=
    standing_afterRound horders hall hnodup hkeyed follower siteId
  refine ⟨⟨sites, hall, ?_, ?_⟩, ?_, ?_⟩
  · intro siteId hpaused
    have hnone : ∀ site ∈ sites.find? (·.id = siteId), site.paused = true := by
      intro site hsite
      have hid : site.id = siteId := by simpa using List.find?_some hsite
      exact hpaused site (List.mem_of_find?_eq_some hsite) hid
    rw [Jobs.filter_pending hkeyed', hstanding, Standing.waiting_synced_eq_none hnone]
    rfl
  · intro site hsite hactive
    have hread : ledger.site site.id = .ok site := (hwritten.mem_allSites_iff hall site).1 hsite
    have hfind : sites.find? (·.id = site.id) = some site :=
      Ledger.find?_of_nodup hnodup hsite
    obtain ⟨next, hnext⟩ : ∃ next, site.next = some next := by
      have hplan := hwritten.paused_eq_isNone hread
      rw [hactive] at hplan
      exact Option.isSome_iff_exists.1 (Option.isNone_eq_false_iff.1 hplan.symm)
    have hsynced : after.jobs.standing site.id = (engine.jobs.standing site.id).installed next := by
      rw [hstanding, hfind, Standing.synced_of_active hactive hnext]
    refine ⟨next, hnext, fun hlater => ?_, fun spent hspent hcovered => ?_⟩
    · rw [Jobs.filter_pending hkeyed', hsynced, Standing.waiting_installed_of_later hlater]
      rfl
    · rw [Jobs.filter_pending hkeyed', Jobs.filter_pending hkeyed, hsynced,
        Standing.installed_of_isSpent hspent hcovered]
  · rw [hafter]
    exact ⟨Jobs.running_foldl_obey _ _, rfl, rfl, rfl⟩
  · intro later
    have hagain (siteId : Int) :
        (after.afterRound later ledger).jobs.standing siteId = after.jobs.standing siteId := by
      rw [standing_afterRound horders' hall hnodup hkeyed', hstanding, Standing.synced_synced]
    refine ⟨Slots.soonestFirst_eq ?_ hkeyed' fun siteId => ?_, hagain⟩
    · rw [afterRound_eq horders' hall]
      exact Jobs.isKeyed_waiting_foldl_obey hkeyed' _
    · exact congrArg Standing.waiting (hagain siteId)

/-- Two sites are added and the second one is paused.  A table that misses the job of the first, has one
for the second and one for a site that is not there is brought in step. -/
theorem in_step_after_round_of_stale_table :
    let moment (second : Int) : Moment := ⟨⟨second, 0⟩, .fixed 0, []⟩
    let first := (Operation.addSite .sample).applied (moment 10) { feed := { capacity := 1 } }
    let second := (Operation.addSite .sample).applied (moment 20) first
    let store := (Operation.setPaused 2 true).applied (moment 30) second
    let engine : Engine := {
      jobs := { grace := 60, waiting := [(2, ⟨700, 0⟩), (3, ⟨800, 0⟩)], covered := [(1, ⟨5, 0⟩)] } }
    let after := engine.afterRound { seen := 0, nextResync := 0 } store.ledger
    store.ledger.IsWritten ∧ store.ledger.HasPlainYears ∧ engine.orders = [] ∧
      engine.jobs.waiting.IsKeyed ∧ after.jobs.pending.filter (·.1 = 1) = [(1, ⟨10, 0⟩)] ∧
      after.jobs.pending.filter (·.1 = 2) = [] ∧ after.jobs.pending.filter (·.1 = 3) = [] := by
  intro moment first second store engine after
  have hat (second : Int) : (moment second).IsAt 0 := ⟨rfl, Nat.zero_lt_succ _⟩
  have hahead : 1 ≤ (10 : UInt32).toNat := by decide
  have hstore : store.Arises 0 :=
    .applied (.applied (.applied (.new Nat.one_pos) (.addSite .sample) hahead (moment 10) (hat 10))
      (.addSite .sample) hahead (moment 20) (hat 20)) (.setPaused 2 true) trivial (moment 30) (hat 30)
  have hnexts : store.ledger.sites.map (·.next) = [some (millisText ⟨10, 0⟩), none] := by
    decide +kernel
  have hread : (store.ledger.allSites.toOption.map fun sites =>
      sites.map fun site => (site.id, site.paused, site.next)) =
        some [(1, false, some ⟨10, 0⟩), (2, true, none)] := by
    decide +kernel
  clear_value store
  have hwritten : store.ledger.IsWritten := hstore.isSound.ledger.toIsWritten
  have hyears : store.ledger.HasPlainYears := by
    intro row hrow text htext
    have hmem : row.next ∈ store.ledger.sites.map (·.next) := List.mem_map_of_mem hrow
    rw [hnexts, htext] at hmem
    rcases List.mem_cons.1 hmem with hfirst | hsecond
    · exact ⟨⟨10, 0⟩, Nat.zero_lt_succ _, by decide, Option.some.inj hfirst⟩
    · cases List.mem_singleton.1 hsecond
  have hkeyed : engine.jobs.waiting.IsKeyed := show ([2, 3] : List Int).Nodup by decide
  obtain ⟨⟨sites, hall, hgone, hactive⟩, -, -⟩ :=
    in_step_after_round hwritten hyears rfl hkeyed { seen := 0, nextResync := 0 }
  rw [hall] at hread
  have hsites : sites.map (fun site => (site.id, site.paused, site.next)) =
      [(1, false, some ⟨10, 0⟩), (2, true, none)] := Option.some.inj hread
  have hknown : ∀ site ∈ sites, site.id = 1 ∨ site.id = 2 ∧ site.paused = true := by
    intro site hsite
    have hmem := List.mem_map_of_mem (f := fun site : Site => (site.id, site.paused, site.next)) hsite
    rw [hsites] at hmem
    simp only [List.mem_cons, Prod.mk.injEq, List.not_mem_nil, or_false] at hmem
    exact hmem.imp (fun h => h.1) fun h => ⟨h.1, h.2.1⟩
  refine ⟨hwritten, hyears, rfl, hkeyed, ?_, hgone 2 ?_, hgone 3 ?_⟩
  · have hmem : (1, false, some ⟨10, 0⟩) ∈ sites.map fun site => (site.id, site.paused, site.next) := by
      rw [hsites]
      exact List.mem_cons_self
    obtain ⟨site, hsite, hsame⟩ := List.mem_map.1 hmem
    simp only [Prod.mk.injEq] at hsame
    obtain ⟨hid, hpaused, hnext⟩ := hsame
    obtain ⟨next, hsome, hlater, -⟩ := hactive site hsite hpaused
    cases hnext.symm.trans hsome
    rw [hid] at hlater
    refine hlater fun spent hspent => ?_
    rcases hspent with hrunning | hcovered
    · cases hrunning
    · cases hcovered
      decide
  · intro site hsite hid
    rcases hknown site hsite with hone | ⟨-, hpaused⟩
    · omega
    · exact hpaused
  · intro site hsite hid
    rcases hknown site hsite with hone | ⟨htwo, -⟩ <;> omega

end Engine

end KeepAlive

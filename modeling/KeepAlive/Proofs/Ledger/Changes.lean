import KeepAlive.Ledger.Attempts
import KeepAlive.Ledger.Sites

/-!
# What an operation that takes place has done

For every operation on a ledger that is not refused, what it has found in the ledger, the ledger
after it and the events that it announces.
-/

namespace KeepAlive.Ledger

open Time

theorem bind_eq_ok {ε α β : Type} {first : Except ε α} {rest : α → Except ε β} {b : β} :
    (first >>= rest) = .ok b ↔ ∃ a, first = .ok a ∧ rest a = .ok b := by
  cases first <;> simp [bind, Except.bind]

theorem bind_eq_error {ε α β : Type} {first : Except ε α} {rest : α → Except ε β} {e : ε} :
    (first >>= rest) = .error e ↔ first = .error e ∨ ∃ a, first = .ok a ∧ rest a = .error e := by
  cases first <;> simp [bind, Except.bind]

theorem mapM_eq_ok {ε α β : Type} {read : α → Except ε β} {rows : List α} {values : List β}
    (h : rows.mapM read = .ok values) (value : β) :
    value ∈ values ↔ ∃ row ∈ rows, read row = .ok value := by
  induction rows generalizing values with
  | nil =>
    cases h
    simp
  | cons row rest ih =>
    rw [List.mapM_cons] at h
    obtain ⟨first, hfirst, h⟩ := bind_eq_ok.1 h
    obtain ⟨others, hothers, h⟩ := bind_eq_ok.1 h
    cases h
    simp only [List.mem_cons, ih hothers, exists_eq_or_imp, hfirst, Except.ok.injEq]
    exact or_congr_left eq_comm

theorem isReadable_of_mapM_eq_ok {ε α β : Type} {read : α → Except ε β} {rows : List α}
    {values : List β} (h : rows.mapM read = .ok values) {row : α} (hmem : row ∈ rows) :
    ∃ value, read row = .ok value := by
  induction rows generalizing values with
  | nil => cases hmem
  | cons first rest ih =>
    rw [List.mapM_cons] at h
    obtain ⟨value, hfirst, h⟩ := bind_eq_ok.1 h
    obtain ⟨others, hothers, h⟩ := bind_eq_ok.1 h
    rcases List.mem_cons.1 hmem with rfl | hmem
    · exact ⟨value, hfirst⟩
    · exact ih hothers hmem

theorem exists_mapM_eq_ok {ε α β : Type} {read : α → Except ε β} {rows : List α}
    (h : ∀ row ∈ rows, ∃ value, read row = .ok value) : ∃ values, rows.mapM read = .ok values := by
  induction rows with
  | nil => exact ⟨[], rfl⟩
  | cons row rest ih =>
    obtain ⟨value, hvalue⟩ := h row List.mem_cons_self
    obtain ⟨values, hvalues⟩ := ih fun other hother => h other (List.mem_cons_of_mem row hother)
    refine ⟨value :: values, ?_⟩
    rw [List.mapM_cons, hvalue, hvalues]
    rfl

theorem mapM_map_eq {ε α β γ : Type} {read : α → Except ε β} {keyOf : α → γ} {key : β → γ}
    (hkey : ∀ row value, read row = .ok value → key value = keyOf row) {rows : List α}
    {values : List β} (h : rows.mapM read = .ok values) : values.map key = rows.map keyOf := by
  induction rows generalizing values with
  | nil =>
    cases h
    rfl
  | cons row rest ih =>
    rw [List.mapM_cons] at h
    obtain ⟨first, hfirst, h⟩ := bind_eq_ok.1 h
    obtain ⟨others, hothers, h⟩ := bind_eq_ok.1 h
    cases h
    rw [List.map_cons, List.map_cons, ih hothers, hkey row first hfirst]

theorem mapM_take {ε α β : Type} {read : α → Except ε β} {rows : List α} {values : List β}
    (h : rows.mapM read = .ok values) (limit : Nat) :
    (rows.take limit).mapM read = .ok (values.take limit) := by
  induction rows generalizing values limit with
  | nil =>
    cases h
    simp [pure, Except.pure]
  | cons row rest ih =>
    rw [List.mapM_cons] at h
    obtain ⟨first, hfirst, h⟩ := bind_eq_ok.1 h
    obtain ⟨others, hothers, h⟩ := bind_eq_ok.1 h
    cases h
    cases limit with
    | zero => rfl
    | succ limit =>
      rw [List.take_succ_cons, List.take_succ_cons, List.mapM_cons, hfirst, ih hothers limit]
      rfl

/-- What holds of all rows in order holds of their values in order. -/
theorem pairwise_mapM {ε α β : Type} {read : α → Except ε β} {rows : List α} {values : List β}
    {IsBefore : α → α → Prop} {Follows : β → β → Prop} (h : rows.mapM read = .ok values)
    (hrows : rows.Pairwise IsBefore)
    (himp : ∀ row ∈ rows, ∀ other ∈ rows, ∀ value others, read row = .ok value →
      read other = .ok others → IsBefore row other → Follows value others) :
    values.Pairwise Follows := by
  induction rows generalizing values with
  | nil =>
    cases h
    exact List.Pairwise.nil
  | cons row rest ih =>
    rw [List.mapM_cons] at h
    obtain ⟨first, hfirst, h⟩ := bind_eq_ok.1 h
    obtain ⟨others, hothers, h⟩ := bind_eq_ok.1 h
    cases h
    obtain ⟨hrow, hrest⟩ := List.pairwise_cons.1 hrows
    refine List.pairwise_cons.2 ⟨fun value hvalue => ?_, ih hothers hrest ?_⟩
    · obtain ⟨other, hother, hread⟩ := (mapM_eq_ok hothers value).1 hvalue
      exact himp row List.mem_cons_self other (List.mem_cons_of_mem row hother) first value hfirst
        hread (hrow other hother)
    · intro one hone other hother
      exact himp one (List.mem_cons_of_mem row hone) other (List.mem_cons_of_mem row hother)

theorem mapError_ok {α ε δ : Type} (f : ε → δ) (a : α) :
    (Except.ok a : Except ε α).mapError f = .ok a :=
  rfl

theorem mapError_error {α ε δ : Type} (f : ε → δ) (e : ε) :
    (Except.error e : Except ε α).mapError f = .error (f e) :=
  rfl

theorem mapError_unreadable_eq_ok {α : Type} {parsed : Except Unreadable α} {a : α} :
    parsed.mapError Refusal.unreadable = .ok a ↔ parsed = .ok a := by
  cases parsed with
  | error cause => simp [mapError_error]
  | ok value => simp [mapError_ok]

theorem site_eq_ok_iff {ledger : Ledger} {id : Int} {site : Site} :
    ledger.site id = .ok site ↔
      ∃ row, ledger.sites.find? (·.id = id) = some row ∧ row.site? = .ok site := by
  unfold Ledger.site Ledger.read
  cases ledger.sites.find? (·.id = id) <;> simp [mapError_unreadable_eq_ok]

theorem entry_eq_ok_iff {ledger : Ledger} {id : Int} {entry : History} :
    ledger.entry id = .ok entry ↔
      ∃ row, ledger.history.find? (·.id = id) = some row ∧ row.history? = .ok entry := by
  unfold Ledger.entry Ledger.read
  cases ledger.history.find? (·.id = id) <;> simp [mapError_unreadable_eq_ok]

/-- Without a row there is no site, and a site that cannot be read has a row. -/
theorem site_eq_error {ledger : Ledger} {id : Int} {refusal : Refusal}
    (h : ledger.site id = .error refusal) :
    (refusal = .siteNotFound id ∧ ledger.sites.find? (·.id = id) = none) ∨
      ∃ cause, refusal = .unreadable cause := by
  unfold Ledger.site Ledger.read at h
  cases hrow : ledger.sites.find? (·.id = id) with
  | none =>
    rw [hrow] at h
    exact Or.inl ⟨(Except.error.inj h).symm, rfl⟩
  | some row =>
    rw [hrow] at h
    cases hsite : row.site? with
    | ok site => simp [hsite, mapError_ok] at h
    | error cause =>
      simp only [hsite, mapError_error, Except.error.injEq] at h
      exact Or.inr ⟨cause, h.symm⟩

theorem entry_eq_error {ledger : Ledger} {id : Int} {refusal : Refusal}
    (h : ledger.entry id = .error refusal) :
    (refusal = .historyNotFound id ∧ ledger.history.find? (·.id = id) = none) ∨
      ∃ cause, refusal = .unreadable cause := by
  unfold Ledger.entry Ledger.read at h
  cases hrow : ledger.history.find? (·.id = id) with
  | none =>
    rw [hrow] at h
    exact Or.inl ⟨(Except.error.inj h).symm, rfl⟩
  | some row =>
    rw [hrow] at h
    cases hentry : row.history? with
    | ok entry => simp [hentry, mapError_ok] at h
    | error cause =>
      simp only [hentry, mapError_error, Except.error.injEq] at h
      exact Or.inr ⟨cause, h.symm⟩

section

variable {ledger : Ledger} {moment : Moment}

theorem addSite_eq_ok {new : NewSite} {change : Change Site}
    (h : ledger.addSite moment new = .ok change) :
    ∃ id, id = nextId (ledger.sites.map (·.id)) ∧
      change.ledger = { ledger with
        sites := placed (·.id) (.ofNew id moment.now new) ledger.sites } ∧
      change.ledger.site id = .ok change.result ∧
      change.events = [.siteCreated change.result.id] := by
  unfold addSite at h
  obtain ⟨-, -, h⟩ := bind_eq_ok.1 h
  obtain ⟨site, hsite, h⟩ := bind_eq_ok.1 h
  cases h
  exact ⟨_, rfl, rfl, hsite, rfl⟩

theorem updateSite_eq_ok {id : Int} {edit : SiteEdit} {change : Change Site}
    (h : ledger.updateSite moment id edit = .ok change) :
    ∃ before, ledger.site id = .ok before ∧
      ((change.ledger = ledger.withSite id (·.withEdit (before.edited edit)) ∧
          change.events = []) ∨
        ((before.edited edit).policy ≠ before.policy ∧ before.paused = false ∧
          change.ledger = (ledger.withSite id (·.withEdit (before.edited edit))).withNext id
            (drawn (before.edited edit) moment) ∧
          change.events = [.siteRescheduled id])) := by
  unfold updateSite at h
  obtain ⟨-, -, h⟩ := bind_eq_ok.1 h
  obtain ⟨before, hbefore, h⟩ := bind_eq_ok.1 h
  refine ⟨before, hbefore, ?_⟩
  dsimp only at h
  split at h
  · rename_i hchanged
    cases h
    exact Or.inr ⟨hchanged.1, by simpa using hchanged.2, rfl, rfl⟩
  · cases h
    exact Or.inl ⟨rfl, rfl⟩

theorem setPaused_eq_ok {id : Int} {paused : Bool} {change : Change Site}
    (h : ledger.setPaused moment id paused = .ok change) :
    ∃ site, ledger.site id = .ok site ∧
      ((change.ledger = ledger ∧ change.events = []) ∨
        (site.paused ≠ paused ∧
          change.ledger =
            (ledger.withSite id fun row => { row with paused := .ofBool paused }).withNext id
              (drawn { site with paused } moment) ∧
          change.events = [.sitePaused id paused])) := by
  unfold setPaused at h
  obtain ⟨site, hsite, h⟩ := bind_eq_ok.1 h
  refine ⟨site, hsite, ?_⟩
  split at h
  · cases h
    exact Or.inl ⟨rfl, rfl⟩
  · rename_i hchanged
    cases h
    exact Or.inr ⟨hchanged, rfl, rfl⟩

theorem triggerNow_eq_ok {id : Int} {change : Change Site}
    (h : ledger.triggerNow moment id = .ok change) :
    ∃ site, ledger.site id = .ok site ∧ site.paused = false ∧
      change.ledger = ledger.withNext id (some moment.now) ∧
      change.events = [.siteRescheduled id] := by
  unfold triggerNow at h
  obtain ⟨site, hsite, h⟩ := bind_eq_ok.1 h
  split at h
  · cases h
  · rename_i hpaused
    cases h
    exact ⟨site, hsite, by simpa using hpaused, rfl, rfl⟩

theorem reschedule_eq_ok {id : Int} {change : Change Site}
    (h : ledger.reschedule moment id = .ok change) :
    ∃ site, ledger.site id = .ok site ∧
      change.result = { site with next := drawn site moment } ∧
      change.ledger = ledger.withNext id (drawn site moment) ∧
      change.events = if site.paused then [] else [.siteRescheduled id] := by
  unfold reschedule at h
  obtain ⟨site, hsite, h⟩ := bind_eq_ok.1 h
  cases h
  exact ⟨site, hsite, rfl, rfl, rfl⟩

theorem deleteSite_eq_ok {id : Int} {change : Change Unit}
    (h : ledger.deleteSite id = .ok change) :
    change.ledger.sites = ledger.sites.filter (·.id ≠ id) ∧
      change.ledger.history = ledger.history.filter (·.siteId ≠ id) ∧
      change.events = [.siteDeleted id] := by
  unfold deleteSite at h
  split at h
  · cases h
    exact ⟨rfl, rfl, rfl⟩
  · cases h

theorem insertHistory_eq_ok {siteId : Int} {new : NewHistory} {change : Change History}
    (h : ledger.insertHistory moment siteId new = .ok change) :
    ∃ site id, ledger.site siteId = .ok site ∧ id = nextId (ledger.history.map (·.id)) ∧
      change.ledger = ({ ledger with
        history := placed (·.id) (.ofNew id siteId new) ledger.history }).withNext site.id
          (drawn site moment) ∧
      change.events = [.historyLogged siteId id] := by
  unfold insertHistory at h
  obtain ⟨site, hsite, h⟩ := bind_eq_ok.1 h
  obtain ⟨entry, hentry, h⟩ := bind_eq_ok.1 h
  cases h
  exact ⟨site, _, hsite, rfl, rfl, rfl⟩

theorem finish_eq_ok {id : Int} {how : Finish} {entry : History} {after : Ledger}
    (h : ledger.finish moment id how = .ok (entry, after)) :
    ∃ current site, ledger.entry id = .ok current ∧ current.status.isTerminal = false ∧
      ledger.site current.siteId = .ok site ∧
      after = (ledger.withHistory id (·.finished moment.now how)).withNext site.id
        (drawn site moment) ∧
      after.entry id = .ok entry := by
  unfold finish at h
  obtain ⟨current, hcurrent, h⟩ := bind_eq_ok.1 h
  split at h
  · cases h
  rename_i hopen
  obtain ⟨site, hsite, h⟩ := bind_eq_ok.1 h
  obtain ⟨read, hread, h⟩ := bind_eq_ok.1 h
  cases h
  exact ⟨current, site, hcurrent, by simpa using hopen, hsite, rfl, hread⟩

theorem finishHistory_eq_ok {id : Int} {how : Finish} {change : Change History}
    (h : ledger.finishHistory moment id how = .ok change) :
    ledger.finish moment id how = .ok (change.result, change.ledger) ∧
      change.events = [.historyChanged change.result.siteId id] := by
  unfold finishHistory at h
  obtain ⟨⟨entry, after⟩, hfinish, h⟩ := bind_eq_ok.1 h
  cases h
  exact ⟨hfinish, rfl⟩

/-- Whether a row is that of an open attempt of a site with the given start. -/
def isMeant (siteId : Int) (started : Instant) (row : HistoryRow) : Bool :=
  row.siteId = siteId && row.started = millisText started && row.isOpen

theorem ids_failStale (now : Instant) (message : String) :
    (ledger.failStale now message).ledger.history.map (·.id) = ledger.history.map (·.id) := by
  simp only [failStale, List.map_map]
  congr 1
  funext row
  simp only [Function.comp_apply]
  split <;> rfl

theorem failInProgress_of_none {siteId : Int} {started : Instant} {message : Option String}
    (h : ledger.history.find? (isMeant siteId started) = none) :
    ledger.failInProgress moment siteId started message = .ok ⟨none, ledger, []⟩ := by
  have hfind : ledger.history.find? (fun row =>
      row.siteId = siteId && row.started = millisText started && row.isOpen) = none := h
  unfold failInProgress
  simp only [hfind]
  rfl

theorem failInProgress_of_some {siteId : Int} {started : Instant} {message : Option String}
    {row : HistoryRow} (h : ledger.history.find? (isMeant siteId started) = some row) :
    ledger.failInProgress moment siteId started message =
      (do
        let (entry, after) ← ledger.finish moment row.id (broken message)
        return ⟨some entry, after, [.historyChanged siteId row.id]⟩) := by
  have hfind : ledger.history.find? (fun row =>
      row.siteId = siteId && row.started = millisText started && row.isOpen) = some row := h
  unfold failInProgress
  simp only [hfind]

theorem failInProgress_eq_ok {siteId : Int} {started : Instant} {message : Option String}
    {change : Change (Option History)}
    (h : ledger.failInProgress moment siteId started message = .ok change) :
    (ledger.history.find? (isMeant siteId started) = none ∧ change = ⟨none, ledger, []⟩) ∨
      ∃ row entry, ledger.history.find? (isMeant siteId started) = some row ∧
        ledger.finish moment row.id (broken message) = .ok (entry, change.ledger) ∧
        change.result = some entry ∧ change.events = [.historyChanged siteId row.id] := by
  cases hrow : ledger.history.find? (isMeant siteId started) with
  | none =>
    rw [failInProgress_of_none hrow] at h
    cases h
    exact Or.inl ⟨rfl, rfl⟩
  | some row =>
    rw [failInProgress_of_some hrow] at h
    obtain ⟨⟨entry, after⟩, hfinish, h⟩ := bind_eq_ok.1 h
    cases h
    exact Or.inr ⟨row, entry, rfl, hfinish, rfl, rfl⟩

/-- A reconciled attempt has its open row finished, or a new row if it has no open one. -/
theorem reconcile_eq_ok {fault : Fault} {change : Change History}
    (h : ledger.reconcile moment fault = .ok change) :
    (ledger.history.find? (isMeant fault.siteId fault.started) = none ∧
        ledger.insertHistory moment fault.siteId
          (.crashed fault.started moment.now (some fault.message)) = .ok change) ∨
      ∃ row, ledger.history.find? (isMeant fault.siteId fault.started) = some row ∧
        ledger.finish moment row.id (broken (some fault.message)) =
          .ok (change.result, change.ledger) ∧
        change.events = [.historyChanged fault.siteId row.id] := by
  unfold reconcile at h
  obtain ⟨failed, hfailed, h⟩ := bind_eq_ok.1 h
  rcases failInProgress_eq_ok hfailed with
    ⟨hnone, rfl⟩ | ⟨row, entry, hrow, hfinish, hresult, hevents⟩
  · exact Or.inl ⟨hnone, h⟩
  · rw [hresult] at h
    cases h
    exact Or.inr ⟨row, hrow, hfinish, hevents⟩

end

end KeepAlive.Ledger

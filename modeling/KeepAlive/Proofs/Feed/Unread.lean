import KeepAlive.Feed

/-!
# What a reader of the feed has not read

A feed is whole when it is open and keeps as many events as it can.  A reader of a whole feed awaits
a site when an event about the site is still to come, or when some events are lost to the reader,
who will be told so.  Events that are announced are awaited; what is read is no longer awaited.
-/

namespace KeepAlive.Feed

/-- A feed that is open, has room for an event and has dropped none without need. -/
structure IsWhole (feed : Feed) : Prop where
  isOpen : feed.isOpen = true
  capacity_pos : 0 < feed.capacity
  length_kept : feed.kept.length = min feed.sent feed.capacity

/-- A reader is still to be told of a site, or of events that are lost. -/
def Awaits (feed : Feed) (seen : Nat) (siteId : Int) : Prop :=
  seen + feed.capacity < feed.sent ∨
    ∃ event ∈ feed.kept.take (feed.sent - seen), event.siteId = siteId

theorem IsWhole.new {capacity : Nat} (h : 0 < capacity) : IsWhole { capacity } :=
  ⟨rfl, h, (Nat.zero_min capacity).symm⟩

theorem IsWhole.publish_eq {feed : Feed} (h : feed.IsWhole) (event : Event) :
    feed.publish event =
      { feed with sent := feed.sent + 1, kept := (event :: feed.kept).take feed.capacity } :=
  if_pos h.isOpen

theorem IsWhole.publish {feed : Feed} (h : feed.IsWhole) (event : Event) :
    (feed.publish event).IsWhole := by
  rw [h.publish_eq]
  refine ⟨h.isOpen, h.capacity_pos, ?_⟩
  have hlength := h.length_kept
  simp only [List.length_take, List.length_cons]
  omega

/-- An event that is announced is awaited, and what was awaited before still is. -/
theorem IsWhole.awaits_publish {feed : Feed} (h : feed.IsWhole) {event : Event} {seen : Nat}
    (hseen : seen ≤ feed.sent) {siteId : Int}
    (hawaits : event.siteId = siteId ∨ feed.Awaits seen siteId) :
    (feed.publish event).Awaits seen siteId := by
  rw [h.publish_eq]
  by_cases hlagging : seen + feed.capacity < feed.sent + 1
  · exact Or.inl hlagging
  · have htake : ((event :: feed.kept).take feed.capacity).take (feed.sent + 1 - seen) =
        event :: feed.kept.take (feed.sent - seen) := by
      rw [List.take_take, Nat.min_eq_left (by omega), Nat.sub_add_comm hseen, List.take_succ_cons]
    right
    change ∃ other ∈ ((event :: feed.kept).take feed.capacity).take (feed.sent + 1 - seen), _
    rw [htake]
    rcases hawaits with hevent | hlost | ⟨other, hother, hsite⟩
    · exact ⟨event, List.mem_cons_self, hevent⟩
    · omega
    · exact ⟨other, List.mem_cons_of_mem event hother, hsite⟩

theorem IsWhole.sent_publish {feed : Feed} (h : feed.IsWhole) (event : Event) :
    (feed.publish event).sent = feed.sent + 1 := by
  rw [h.publish_eq]

/-- The latest event about a site is the one that has just been announced, or the one before. -/
theorem IsWhole.find?_kept_publish {feed : Feed} (h : feed.IsWhole) {event found : Event}
    {siteId : Int}
    (hfound : (feed.publish event).kept.find? (·.siteId = siteId) = some found) :
    (event.siteId = siteId ∧ found = event) ∨
      (event.siteId ≠ siteId ∧ feed.kept.find? (·.siteId = siteId) = some found) := by
  rw [h.publish_eq] at hfound
  have hall : (event :: feed.kept).find? (·.siteId = siteId) = some found := by
    rw [← List.take_append_drop feed.capacity (event :: feed.kept), List.find?_append, hfound]
    rfl
  by_cases hsite : event.siteId = siteId
  · rw [List.find?_cons_of_pos (by simpa using hsite)] at hall
    exact Or.inl ⟨hsite, (Option.some.inj hall).symm⟩
  · rw [List.find?_cons_of_neg (by simpa using hsite)] at hall
    exact Or.inr ⟨hsite, hall⟩

theorem IsWhole.publishAll {feed : Feed} (h : feed.IsWhole) (events : List Event) :
    (feed.publishAll events).IsWhole := by
  induction events generalizing feed with
  | nil => exact h
  | cons event rest ih => exact ih (h.publish event)

theorem IsWhole.sent_le_publishAll {feed : Feed} (h : feed.IsWhole) (events : List Event) :
    feed.sent ≤ (feed.publishAll events).sent := by
  induction events generalizing feed with
  | nil => exact Nat.le_refl _
  | cons event rest ih =>
    refine Nat.le_trans ?_ (ih (h.publish event))
    rw [h.sent_publish]
    exact Nat.le_succ _

theorem IsWhole.awaits_publishAll {feed : Feed} (h : feed.IsWhole) {events : List Event}
    {seen : Nat} (hseen : seen ≤ feed.sent) {siteId : Int}
    (hawaits : (∃ event ∈ events, event.siteId = siteId) ∨ feed.Awaits seen siteId) :
    (feed.publishAll events).Awaits seen siteId := by
  induction events generalizing feed with
  | nil =>
    rcases hawaits with ⟨event, hevent, -⟩ | hawaits
    · cases hevent
    · exact hawaits
  | cons event rest ih =>
    refine ih (h.publish event) (by rw [h.sent_publish]; omega) ?_
    rcases hawaits with ⟨other, hother, hsite⟩ | hawaits
    · rcases List.mem_cons.1 hother with rfl | hother
      · exact Or.inr (h.awaits_publish hseen (Or.inl hsite))
      · exact Or.inl ⟨other, hother, hsite⟩
    · exact Or.inr (h.awaits_publish hseen (Or.inr hawaits))

theorem IsWhole.find?_kept_publishAll {feed : Feed} (h : feed.IsWhole) {events : List Event}
    {found : Event} {siteId : Int}
    (hfound : (feed.publishAll events).kept.find? (·.siteId = siteId) = some found) :
    found ∈ events ∨
      ((∀ event ∈ events, event.siteId ≠ siteId) ∧
        feed.kept.find? (·.siteId = siteId) = some found) := by
  induction events generalizing feed with
  | nil => exact Or.inr ⟨fun _ h => absurd h List.not_mem_nil, hfound⟩
  | cons event rest ih =>
    rcases ih (h.publish event) hfound with hmem | ⟨hrest, hkept⟩
    · exact Or.inl (List.mem_cons_of_mem event hmem)
    · rcases h.find?_kept_publish hkept with ⟨-, rfl⟩ | ⟨hne, hkept⟩
      · exact Or.inl List.mem_cons_self
      · refine Or.inr ⟨?_, hkept⟩
        intro other hother
        rcases List.mem_cons.1 hother with rfl | hother
        · exact hne
        · exact hrest other hother

/-- A reader who has had everything awaits nothing. -/
theorem not_awaits_sent (feed : Feed) (siteId : Int) : ¬feed.Awaits feed.sent siteId := by
  rintro (hlost | ⟨event, hevent, -⟩)
  · omega
  · rw [Nat.sub_self, List.take_zero] at hevent
    cases hevent

theorem lt_of_awaits {feed : Feed} {seen : Nat} {siteId : Int} (hle : seen ≤ feed.sent)
    (h : feed.Awaits seen siteId) : seen < feed.sent := by
  refine Nat.lt_of_le_of_ne hle ?_
  rintro rfl
  exact feed.not_awaits_sent siteId h

/-- A reader who has taken an event and awaits nothing more about its site has had the latest one.
-/
theorem find?_kept_of_take {feed : Feed} {seen : Nat} {event : Event} {siteId : Int}
    (htake : feed.kept.take (feed.sent - seen) = feed.kept.take (feed.sent - (seen + 1)) ++ [event])
    (hsite : event.siteId = siteId) (hmore : ¬feed.Awaits (seen + 1) siteId) :
    feed.kept.find? (·.siteId = siteId) = some event := by
  have hnone : (feed.kept.take (feed.sent - (seen + 1))).find? (·.siteId = siteId) = none := by
    simp only [List.find?_eq_none, decide_eq_true_eq]
    exact fun other hother hid => hmore (Or.inr ⟨other, hother, hid⟩)
  rw [← List.take_append_drop (feed.sent - seen) feed.kept, htake, List.find?_append,
    List.find?_append, hnone]
  simp [hsite]

/-- A reader who is told of lost events goes on with what is kept. -/
theorem read_of_lost {feed : Feed} {seen : Nat} (h : seen + feed.capacity < feed.sent) :
    feed.read seen =
      (.lagged (feed.sent - feed.capacity - seen), feed.sent - feed.capacity) :=
  if_pos h

/-- A reader who has lost nothing gets the first event that it has not had. -/
theorem IsWhole.read_of_lt {feed : Feed} (h : feed.IsWhole) {seen : Nat}
    (hlost : ¬seen + feed.capacity < feed.sent) (hlt : seen < feed.sent) :
    ∃ event, feed.read seen = (.event event, seen + 1) ∧
      feed.kept.take (feed.sent - seen) = feed.kept.take (feed.sent - (seen + 1)) ++ [event] := by
  have hlength := h.length_kept
  have hplace : feed.sent - 1 - seen < feed.kept.length := by omega
  refine ⟨feed.kept[feed.sent - 1 - seen], ?_, ?_⟩
  · rw [read, if_neg hlost, if_pos hlt, List.getElem?_eq_getElem hplace]
  · have hsub : feed.sent - seen = feed.sent - 1 - seen + 1 := by omega
    have hsub' : feed.sent - (seen + 1) = feed.sent - 1 - seen := by omega
    rw [hsub, hsub', List.take_add_one, List.getElem?_eq_getElem hplace]
    rfl

/-- A reader who has had everything gets nothing. -/
theorem IsWhole.read_of_sent {feed : Feed} (h : feed.IsWhole) {seen : Nat}
    (hlost : ¬seen + feed.capacity < feed.sent) (hlt : ¬seen < feed.sent) :
    feed.read seen = (.empty, seen) := by
  rw [read, if_neg hlost, if_neg hlt, if_pos h.isOpen]

end KeepAlive.Feed

import EventDelivery.Feed
import EventDelivery.Proofs.WindowRecords

/-! What a feed tells of its lines, and the groups that its events are published in. A line that is bad cuts
the feed: the events before it count, but only full groups of them are published. -/

namespace EventDelivery
set_option autoImplicit false

section Windows
variable {α : Type} {size : Nat} {positive : 0 < size}

theorem full_windows_of_length_lt {items : List α} (h : items.length < size) :
    (windows size positive items).filter (·.length = size) = [] := by
  by_cases hnil : items = []
  · rw [hnil, windows_nil]
    rfl
  · have hshort : ¬ items.length = size := Nat.ne_of_lt h
    rw [windows_of_length_le hnil (Nat.le_of_lt h), List.filter_cons_of_neg (by simpa using hshort)]
    rfl

end Windows

namespace Feed

/-- The lines that are not blank. -/
def written (lines : List String) : List String := lines.filter (!blankLine ·)

/-- What a feed tells of lines of which the first has the given number: their events, where each written
line is one; otherwise the events before the first line that is none, and the number of that line. -/
inductive Tells (number : Nat) (lines : List String) : Feed → Prop where
  | whole {events : List Event} (read : (written lines).mapM Event.ofLine = .ok events) :
      Tells number lines ⟨events, none⟩
  | cut {before after : List String} {line : String} {events : List Event} {issues : List Issue}
      (split : lines = before ++ line :: after)
      (read : (written before).mapM Event.ofLine = .ok events)
      (notBlank : blankLine line = false) (bad : Event.ofLine line = .error issues) :
      Tells number lines ⟨events, some (.badLine (number + before.length) issues)⟩

section Tells
variable {number : Nat} {line : String} {lines : List String} {feed : Feed}

theorem written_of_blank (h : blankLine line) : written (line :: lines) = written lines :=
  List.filter_cons_of_neg (by simp [h])

theorem written_of_notBlank (h : blankLine line = false) :
    written (line :: lines) = line :: written lines :=
  List.filter_cons_of_pos (by simp [h])

theorem mapM_written_cons {event : Event} {events : List Event} (notBlank : blankLine line = false)
    (read : Event.ofLine line = .ok event) (rest : (written lines).mapM Event.ofLine = .ok events) :
    (written (line :: lines)).mapM Event.ofLine = .ok (event :: events) := by
  rw [written_of_notBlank notBlank, List.mapM_cons, read, bind_of_eq_ok rfl, rest]
  rfl

theorem Tells.cut_cons {before after : List String} {bad : String} {events : List Event}
    {issues : List Issue} (split : lines = before ++ bad :: after)
    (read : (written (line :: before)).mapM Event.ofLine = .ok events)
    (notBlank : blankLine bad = false) (hbad : Event.ofLine bad = .error issues) :
    Tells number (line :: lines) ⟨events, some (.badLine (number + 1 + before.length) issues)⟩ := by
  have hcut : Tells number (line :: lines)
      ⟨events, some (.badLine (number + (line :: before).length) issues)⟩ :=
    .cut (congrArg (line :: ·) split) read notBlank hbad
  rwa [List.length_cons, Nat.add_comm before.length, ← Nat.add_assoc] at hcut

theorem Tells.blank (blank : blankLine line) (h : Tells (number + 1) lines feed) :
    Tells number (line :: lines) feed := by
  cases h with
  | whole read => exact .whole (by rwa [written_of_blank blank])
  | cut split read notBlank hbad =>
    exact .cut_cons split (by rwa [written_of_blank blank]) notBlank hbad

theorem Tells.cons {event : Event} (notBlank : blankLine line = false)
    (read : Event.ofLine line = .ok event) (h : Tells (number + 1) lines feed) :
    Tells number (line :: lines) (cons event feed) := by
  cases h with
  | whole hread => exact .whole (mapM_written_cons notBlank read hread)
  | cut split hread hnotBlank hbad =>
    exact .cut_cons split (mapM_written_cons notBlank read hread) hnotBlank hbad

theorem tells_readFrom (number : Nat) (lines : List String) :
    Tells number lines (readFrom number lines) := by
  induction lines generalizing number with
  | nil => exact .whole rfl
  | cons line lines ih =>
    rw [readFrom, readLine]
    cases hblank : blankLine line with
    | true => exact (ih (number + 1)).blank hblank
    | false =>
      cases hread : Event.ofLine line with
      | ok event => exact (ih (number + 1)).cons hblank hread
      | error issues =>
        have hcut : Tells number (line :: lines)
            ⟨[], some (.badLine (number + ([] : List String).length) issues)⟩ :=
          .cut rfl rfl hblank hread
        exact hcut

theorem readFrom_of_written {events : List Event} (read : (written lines).mapM Event.ofLine = .ok events) :
    readFrom number lines = ⟨events, none⟩ := by
  induction lines generalizing number events with
  | nil =>
    obtain rfl := Except.ok.inj read
    rfl
  | cons line lines ih =>
    rw [readFrom, readLine]
    cases hblank : blankLine line with
    | true =>
      rw [written_of_blank hblank] at read
      exact ih read
    | false =>
      rw [written_of_notBlank hblank, List.mapM_cons] at read
      obtain ⟨event, hevent, hrest⟩ := bind_eq_ok_iff.mp read
      obtain ⟨later, hlater, hpure⟩ := bind_eq_ok_iff.mp hrest
      obtain rfl := Except.ok.inj hpure
      rw [hevent]
      exact congrArg (cons event) (ih hlater)

end Tells

/-- A feed that goes on from events that were kept. -/
def after (kept : List Event) (feed : Feed) : Feed := ⟨kept ++ feed.events, feed.failure⟩

@[simp] theorem after_nil (feed : Feed) : after [] feed = feed := rfl

theorem after_cons (kept : List Event) (event : Event) (feed : Feed) :
    after kept (cons event feed) = after (kept ++ [event]) feed := by
  rw [after, after, List.append_assoc]
  rfl

/-- The groups that a feed is published in: the windows of its events, of which a shorter last one is left
out where a bad line cut the feed. -/
def groups (size : Nat) (positive : 0 < size) (feed : Feed) : List (List Event) :=
  (windows size positive feed.events).filter fun group => feed.failure.isNone || group.length = size

section Groups
variable {size : Nat} {positive : 0 < size} {events kept : List Event} {failure : Failure}

theorem groups_of_whole : groups size positive ⟨events, none⟩ = windows size positive events :=
  List.filter_eq_self.mpr fun _ _ => rfl

theorem groups_of_cut :
    groups size positive ⟨events, some failure⟩
      = (windows size positive events).filter (·.length = size) := rfl

theorem groups_after_of_full (h : kept.length = size) (feed : Feed) :
    (after kept feed).groups size positive = kept :: feed.groups size positive := by
  rw [groups, after, windows_append_of_length_eq h, List.filter_cons_of_pos (by simp [h])]
  rfl

theorem groups_after_of_bad (h : kept.length < size) :
    (after kept ⟨[], some failure⟩).groups size positive = [] := by
  rw [after, List.append_nil, groups_of_cut, full_windows_of_length_lt h]

theorem groups_after_of_end (nonempty : kept ≠ []) (h : kept.length ≤ size) :
    (after kept empty).groups size positive = [kept] := by
  rw [after, empty, List.append_nil, groups_of_whole, windows_of_length_le nonempty h]

end Groups

end Feed

end EventDelivery

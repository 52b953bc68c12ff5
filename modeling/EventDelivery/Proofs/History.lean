import EventDelivery.Interaction
import EventDelivery.Window

/-! What a history tells: the requests with their answers, the events whose marks were accepted, and how
many of these lay before each request. -/

namespace EventDelivery
set_option autoImplicit false

structure Attempt where
  request : Request
  answer : Except RequestFailure Payload

namespace Exchange

def attempt? : Exchange → Option Attempt
  | ⟨.send request, answer⟩ => some ⟨request, answer⟩
  | _ => none

def marked? : Exchange → Option Event
  | ⟨.mark event, .ok ()⟩ => some event
  | _ => none

def isFinish : Exchange → Bool
  | ⟨.finish, _⟩ => true
  | _ => false

/-- What happens while a window is published: requests, pauses and notices. -/
def isPublishing : Exchange → Bool
  | ⟨.send _, _⟩ | ⟨.sleep _, _⟩ | ⟨.note _, _⟩ => true
  | _ => false

def isPausing : Exchange → Bool
  | ⟨.sleep _, _⟩ | ⟨.note _, _⟩ => true
  | _ => false

def accepted (event : Event) : Exchange := ⟨.mark event, .ok ()⟩

theorem isPublishing_of_isPausing {x : Exchange} (h : x.isPausing) : x.isPublishing := by
  obtain ⟨call, answer⟩ := x
  cases call <;> first | rfl | cases h

theorem marked?_of_isPublishing {x : Exchange} (h : x.isPublishing) : x.marked? = none := by
  obtain ⟨call, answer⟩ := x
  cases call <;> first | rfl | cases h

theorem isFinish_of_isPublishing {x : Exchange} (h : x.isPublishing) : x.isFinish = false := by
  obtain ⟨call, answer⟩ := x
  cases call <;> first | rfl | cases h

theorem attempt?_of_isPausing {x : Exchange} (h : x.isPausing) : x.attempt? = none := by
  obtain ⟨call, answer⟩ := x
  cases call <;> first | rfl | cases h

end Exchange

def attempts (h : List Exchange) : List Attempt := h.filterMap Exchange.attempt?

def marks (h : List Exchange) : List Event := h.filterMap Exchange.marked?

/-- The requests of a history, each with the number of events that were marked before it, `n` at first. -/
def attemptsFrom (n : Nat) : List Exchange → List (Nat × Attempt)
  | [] => []
  | x :: h => (x.attempt?.map (n, ·)).toList ++ attemptsFrom (n + (marks [x]).length) h

/-- The requests of window `w` of a batch: those that were sent when all windows before it were marked
and nothing else. -/
def windowAttempts (w : Nat) (h : List Exchange) : List Attempt :=
  ((attemptsFrom 0 h).filter fun x => x.1 = windowSize * w).map (·.2)

section Views
variable {h k : List Exchange} {n : Nat}

@[simp] theorem attempts_append : attempts (h ++ k) = attempts h ++ attempts k :=
  List.filterMap_append

@[simp] theorem marks_append : marks (h ++ k) = marks h ++ marks k :=
  List.filterMap_append

theorem attemptsFrom_append :
    attemptsFrom n (h ++ k) = attemptsFrom n h ++ attemptsFrom (n + (marks h).length) k := by
  induction h generalizing n with
  | nil => rfl
  | cons x h ih =>
    have hx : marks (x :: h) = marks [x] ++ marks h := marks_append (h := [x])
    rw [List.cons_append, attemptsFrom, attemptsFrom, ih, hx, List.length_append, List.append_assoc,
      Nat.add_assoc]

theorem attemptsFrom_add {m : Nat} :
    attemptsFrom (m + n) h = (attemptsFrom n h).map fun x => (m + x.1, x.2) := by
  induction h generalizing n with
  | nil => rfl
  | cons x h ih =>
    rw [attemptsFrom, attemptsFrom, List.map_append, Nat.add_assoc, ih]
    cases x.attempt? <;> rfl

theorem attemptsFrom_eq_map : attemptsFrom n h = (attemptsFrom 0 h).map fun x => (n + x.1, x.2) :=
  attemptsFrom_add (n := 0)

theorem marks_of_publishing (hp : ∀ x ∈ h, x.isPublishing) : marks h = [] :=
  List.filterMap_eq_nil_iff.mpr fun x hx => Exchange.marked?_of_isPublishing (hp x hx)

theorem attemptsFrom_of_publishing (hp : ∀ x ∈ h, x.isPublishing) :
    attemptsFrom n h = (attempts h).map (n, ·) := by
  induction h generalizing n with
  | nil => rfl
  | cons x h ih =>
    have hx : marks [x] = [] := marks_of_publishing fun y hy => hp y (by simp_all)
    rw [attemptsFrom, hx, List.length_nil, Nat.add_zero, ih fun y hy => hp y (List.mem_cons_of_mem x hy),
      attempts, attempts, List.filterMap_cons]
    cases x.attempt? <;> rfl

theorem attempts_of_pausing (hp : ∀ x ∈ h, x.isPausing) : attempts h = [] :=
  List.filterMap_eq_nil_iff.mpr fun x hx => Exchange.attempt?_of_isPausing (hp x hx)

@[simp] theorem marks_accepted (events : List Event) : marks (events.map Exchange.accepted) = events := by
  induction events with
  | nil => rfl
  | cons event events ih => exact congrArg (event :: ·) ih

@[simp] theorem attempts_accepted (events : List Event) :
    attempts (events.map Exchange.accepted) = [] := by
  induction events with
  | nil => rfl
  | cons event events ih => exact ih

@[simp] theorem attemptsFrom_accepted (events : List Event) :
    attemptsFrom n (events.map Exchange.accepted) = [] := by
  induction events generalizing n with
  | nil => rfl
  | cons event events ih => exact ih

theorem marks_published (hp : ∀ x ∈ h, x.isPublishing) (events : List Event) :
    marks (h ++ (events.map Exchange.accepted ++ k)) = events ++ marks k := by
  rw [marks_append, marks_append, marks_of_publishing hp, marks_accepted, List.nil_append]

theorem attempts_published (events : List Event) :
    attempts (h ++ (events.map Exchange.accepted ++ k)) = attempts h ++ attempts k := by
  rw [attempts_append, attempts_append, attempts_accepted, List.nil_append]

theorem attemptsFrom_published (hp : ∀ x ∈ h, x.isPublishing) (events : List Event) :
    attemptsFrom n (h ++ (events.map Exchange.accepted ++ k))
      = (attempts h).map (n, ·) ++ attemptsFrom (n + events.length) k := by
  rw [attemptsFrom_append, attemptsFrom_append, attemptsFrom_accepted, marks_of_publishing hp,
    marks_accepted, attemptsFrom_of_publishing hp, List.nil_append, List.length_nil, Nat.add_zero]

theorem isFinish_of_mem_published (hp : ∀ x ∈ h, x.isPublishing) {events : List Event} {x : Exchange}
    (hx : x ∈ h ++ (events.map Exchange.accepted ++ k)) : x.isFinish = false ∨ x ∈ k := by
  rcases List.mem_append.mp hx with hx | hx
  · exact .inl (Exchange.isFinish_of_isPublishing (hp x hx))
  rcases List.mem_append.mp hx with hx | hx
  · obtain ⟨event, -, rfl⟩ := List.mem_map.mp hx
    exact .inl rfl
  · exact .inr hx

end Views

theorem split_of_not_mem {α : Type} {xs ys before after : List α} {z : α}
    (h : xs ++ ys = before ++ z :: after) (hz : z ∉ xs) :
    ∃ more, before = xs ++ more ∧ ys = more ++ z :: after := by
  rcases List.append_eq_append_iff.mp h with ⟨more, rfl, hys⟩ | ⟨more, rfl, hmore⟩
  · exact ⟨more, rfl, hys⟩
  · cases more with
    | nil => exact ⟨[], by simp, hmore.symm⟩
    | cons x more =>
      obtain ⟨rfl, -⟩ := List.cons.inj hmore
      exact absurd (by simp) hz

theorem split_of_ne_last {α : Type} {xs before after : List α} {y z : α}
    (h : xs ++ [y] = before ++ z :: after) (hz : z ≠ y) : ∃ rest, xs = before ++ z :: rest := by
  rcases List.eq_nil_or_concat after with rfl | ⟨rest, x, rfl⟩
  · obtain ⟨-, hlast⟩ := List.append_inj' h rfl
    exact absurd (List.cons.inj hlast).1.symm hz
  · have hconcat : xs ++ [y] = (before ++ z :: rest) ++ [x] := by simpa using h
    exact ⟨rest, (List.append_inj' hconcat rfl).1⟩

/-- A world that answers requests with the responses of a list, one after another, and takes everything
else that it is asked. -/
def World.playing : World (List Payload)
  | .connect _, script => (.ok ⟨"", false⟩, script)
  | .send _, [] => (.ok (.mapping false []), [])
  | .send _, response :: script => (.ok response, script)
  | .submit _ _, script => (.ok [], script)
  | .sleep _, script => (.ok (), script)
  | .mark _, script => (.ok (), script)
  | .finish, script => (.ok (), script)
  | .close, script => (.ok (), script)
  | .note _, script => ((), script)

namespace Interaction

variable {α σ : Type}

theorem exists_of_mem_history {world : World σ} {p : Interaction α} {s : σ} {x : Exchange}
    (h : x ∈ history world p s) : ∃ c s', x = ⟨c, (world c s').1⟩ := by
  induction p generalizing s with
  | done a => cases h
  | call c next ih =>
    rw [history_call] at h
    rcases List.mem_cons.mp h with rfl | h
    · exact ⟨c, s, rfl⟩
    · exact ih _ h

end Interaction

/-- The committer takes every mark and the finish. -/
structure World.Accepts {σ : Type} (world : World σ) : Prop where
  mark : ∀ event s, (world (.mark event) s).1 = .ok ()
  finish : ∀ s, (world .finish s).1 = .ok ()

section Worlds
variable {α σ : Type} {world : World σ} {p : Interaction α} {s : σ}

theorem World.Accepts.mark_not_refused (accepts : world.Accepts) (event : Event) (fault : Fault) :
    (⟨.mark event, .error fault⟩ : Exchange) ∉ Interaction.history world p s := by
  intro hx
  obtain ⟨c, s', hanswer⟩ := Interaction.exists_of_mem_history hx
  obtain ⟨rfl, hfault⟩ := Exchange.mk.inj hanswer
  cases (eq_of_heq hfault).trans (accepts.mark event s')

theorem World.Accepts.finish_not_refused (accepts : world.Accepts) (fault : Fault) :
    (⟨.finish, .error fault⟩ : Exchange) ∉ Interaction.history world p s := by
  intro hx
  obtain ⟨c, s', hanswer⟩ := Interaction.exists_of_mem_history hx
  obtain ⟨rfl, hfault⟩ := Exchange.mk.inj hanswer
  cases (eq_of_heq hfault).trans (accepts.finish s')

end Worlds

theorem World.accepts_playing : World.playing.Accepts := ⟨fun _ _ => rfl, fun _ => rfl⟩

def Payload.ofCodes (codes : List Payload) : Payload :=
  .mapping false [(.text (Text.ofString "Records"),
    .sequence .list (codes.map fun code => .mapping false [(.text (Text.ofString "ErrorCode"), code)]))]

end EventDelivery

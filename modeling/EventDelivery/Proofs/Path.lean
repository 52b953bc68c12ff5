import EventDelivery.Interaction

/-! Paths: the exchanges that lead through an interaction to its result. A run goes along a path in every
world, so what holds on all paths holds whatever the outside does. -/

namespace EventDelivery
set_option autoImplicit false

namespace Interaction

variable {α β σ : Type}

/-- The exchanges lead through the interaction to the result. -/
inductive Path : Interaction α → List Exchange → α → Prop where
  | done (a : α) : Path (done a) [] a
  | call {c : Call} {next : c.Answer → Interaction α} {answer : c.Answer} {t : List Exchange} {a : α}
      (rest : Path (next answer) t a) : Path (call c next) (⟨c, answer⟩ :: t) a

theorem path_run (world : World σ) (p : Interaction α) (s : σ) :
    Path p (history world p s) (run world p s).1 := by
  induction p generalizing s with
  | done a => exact .done a
  | call c next ih =>
    rw [history_call, run_call]
    exact .call (ih _ _)

@[simp] theorem path_done_iff {a b : α} {t : List Exchange} :
    Path (done a) t b ↔ t = [] ∧ b = a := by
  constructor
  · intro h
    cases h
    exact ⟨rfl, rfl⟩
  · rintro ⟨rfl, rfl⟩
    exact .done b

theorem path_call_iff {c : Call} {next : c.Answer → Interaction α} {t : List Exchange} {a : α} :
    Path (call c next) t a ↔ ∃ answer rest, t = ⟨c, answer⟩ :: rest ∧ Path (next answer) rest a := by
  constructor
  · intro h
    cases h with
    | call rest => exact ⟨_, _, rfl, rest⟩
  · rintro ⟨answer, rest, rfl, h⟩
    exact .call h

theorem Path.unique {p : Interaction α} {t : List Exchange} {a b : α} (ha : Path p t a)
    (hb : Path p t b) : a = b := by
  induction ha with
  | done a => exact (path_done_iff.mp hb).2.symm
  | call _ ih =>
    cases hb with
    | call rest => exact ih rest

theorem Path.bind {p : Interaction α} {f : α → Interaction β} {t u : List Exchange} {a : α} {b : β}
    (hp : Path p t a) (hf : Path (f a) u b) : Path (p >>= f) (t ++ u) b := by
  induction hp with
  | done a => exact hf
  | call _ ih => exact .call (ih hf)

theorem path_bind_iff {p : Interaction α} {f : α → Interaction β} {t : List Exchange} {b : β} :
    Path (p >>= f) t b ↔ ∃ a t₁ t₂, Path p t₁ a ∧ Path (f a) t₂ b ∧ t = t₁ ++ t₂ := by
  constructor
  · intro h
    induction p generalizing t with
    | done a => exact ⟨a, [], t, .done a, h, rfl⟩
    | call c next ih =>
      obtain ⟨answer, rest, rfl, hrest⟩ := path_call_iff.mp h
      obtain ⟨a, t₁, t₂, hp, hf, rfl⟩ := ih answer hrest
      exact ⟨a, ⟨c, answer⟩ :: t₁, t₂, .call hp, hf, rfl⟩
  · rintro ⟨a, t₁, t₂, hp, hf, rfl⟩
    exact hp.bind hf

end Interaction

namespace Action
open Interaction (Path)

variable {α β : Type}

theorem ofExcept_ok_bind (a : α) (f : α → Action β) : ofExcept (.ok a) >>= f = f a := rfl

/-- An action ends early where its first part does, and goes on with the result of that otherwise. -/
theorem path_bind_iff {x : Action α} {f : α → Action β} {t : List Exchange} {r : Except Failure β} :
    Path (x >>= f).run t r ↔
      (∃ e, Path x.run t (.error e) ∧ r = .error e) ∨
      ∃ a t₁ t₂, Path x.run t₁ (.ok a) ∧ Path (f a).run t₂ r ∧ t = t₁ ++ t₂ := by
  rw [ExceptT.run_bind, Interaction.path_bind_iff]
  constructor
  · rintro ⟨ending, t₁, t₂, hx, hf, rfl⟩
    cases ending with
    | ok a => exact .inr ⟨a, t₁, t₂, hx, hf, rfl⟩
    | error e =>
      obtain ⟨rfl, rfl⟩ := Interaction.path_done_iff.mp hf
      exact .inl ⟨e, by rwa [List.append_nil], rfl⟩
  · rintro (⟨e, hx, rfl⟩ | ⟨a, t₁, t₂, hx, hf, rfl⟩)
    · exact ⟨.error e, t, [], hx, .done _, (List.append_nil t).symm⟩
    · exact ⟨.ok a, t₁, t₂, hx, hf, rfl⟩

@[simp] theorem path_ofExcept_iff {x r : Except Failure α} {t : List Exchange} :
    Path (ofExcept x).run t r ↔ t = [] ∧ r = x :=
  Interaction.path_done_iff

@[simp] theorem path_lift_iff {x r : Except Failure α} {t : List Exchange} :
    Path (liftM x : Action α).run t r ↔ t = [] ∧ r = x :=
  Interaction.path_done_iff

@[simp] theorem path_pure_iff {a : α} {t : List Exchange} {r : Except Failure α} :
    Path (pure a : Action α).run t r ↔ t = [] ∧ r = .ok a :=
  Interaction.path_done_iff

@[simp] theorem path_throw_iff {e : Failure} {t : List Exchange} {r : Except Failure α} :
    Path (throw e : Action α).run t r ↔ t = [] ∧ r = .error e :=
  Interaction.path_done_iff

@[simp] theorem path_note_iff {notice : Notice} {t : List Exchange} {r : Except Failure Unit} :
    Path (note notice).run t r ↔ t = [⟨.note notice, ()⟩] ∧ r = .ok () := by
  constructor
  · intro h
    obtain ⟨answer, rest, rfl, hrest⟩ := Interaction.path_call_iff.mp h
    obtain ⟨rfl, rfl⟩ := Interaction.path_done_iff.mp hrest
    exact ⟨rfl, rfl⟩
  · rintro ⟨rfl, rfl⟩
    exact .call (.done _)

theorem path_note_bind_iff {notice : Notice} {f : Unit → Action α} {t : List Exchange}
    {r : Except Failure α} :
    Path (note notice >>= f).run t r ↔ ∃ u, t = ⟨.note notice, ()⟩ :: u ∧ Path (f ()).run u r := by
  rw [path_bind_iff]
  constructor
  · rintro (⟨e, hnote, -⟩ | ⟨_, t₁, u, hnote, hrest, rfl⟩)
    · cases (path_note_iff.mp hnote).2
    · obtain ⟨rfl, -⟩ := path_note_iff.mp hnote
      exact ⟨u, rfl, hrest⟩
  · rintro ⟨u, rfl, hrest⟩
    exact .inr ⟨(), _, u, path_note_iff.mpr ⟨rfl, rfl⟩, hrest, rfl⟩

@[simp] theorem path_ofCall_iff {c : Call} {read : c.Answer → Except Failure α} {t : List Exchange}
    {r : Except Failure α} :
    Path (ofCall c read).run t r ↔ ∃ answer, t = [⟨c, answer⟩] ∧ r = read answer := by
  constructor
  · intro h
    obtain ⟨answer, rest, rfl, hrest⟩ := Interaction.path_call_iff.mp h
    obtain ⟨rfl, rfl⟩ := Interaction.path_done_iff.mp hrest
    exact ⟨answer, rfl, rfl⟩
  · rintro ⟨answer, rfl, rfl⟩
    exact .call (.done _)

section Runs
variable {σ : Type} {world : World σ} {s : σ} {x : Action α} {f : α → Action β}

theorem run_bind_of_ok {a : α} (h : (Interaction.run world x.run s).1 = .ok a) :
    Interaction.run world (x >>= f).run s
      = Interaction.run world (f a).run (Interaction.run world x.run s).2 ∧
    Interaction.history world (x >>= f).run s
      = Interaction.history world x.run s
        ++ Interaction.history world (f a).run (Interaction.run world x.run s).2 := by
  rw [ExceptT.run_bind, Interaction.run_bind, Interaction.history_bind, h]
  exact ⟨rfl, rfl⟩

theorem run_bind_of_error {e : Failure} (h : (Interaction.run world x.run s).1 = .error e) :
    Interaction.run world (x >>= f).run s = (.error e, (Interaction.run world x.run s).2) ∧
    Interaction.history world (x >>= f).run s = Interaction.history world x.run s := by
  rw [ExceptT.run_bind, Interaction.run_bind, Interaction.history_bind, h]
  exact ⟨rfl, List.append_nil _⟩

end Runs

end Action

end EventDelivery

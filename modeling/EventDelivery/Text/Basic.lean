/-! Text as a host hands it over: characters, and halves of surrogate pairs that stand alone.
Only text without such halves has an encoding; `Text.toString?` is the test. -/

namespace EventDelivery
set_option autoImplicit false

/-- A Unicode character, or one half of a surrogate pair without its partner. -/
inductive CodePoint where
  | char (c : Char)
  | lone (half : Fin 2048)
deriving DecidableEq

namespace CodePoint

def value : CodePoint → Nat
  | char c => c.toNat
  | lone half => 0xD800 + half.val

def char? : CodePoint → Option Char
  | char c => some c
  | lone _ => none

@[simp] theorem char?_char (c : Char) : (char c).char? = some c := rfl

@[simp] theorem char?_lone (half : Fin 2048) : (lone half).char? = none := rfl

theorem char?_eq_some_iff {p : CodePoint} {c : Char} : p.char? = some c ↔ p = char c := by
  cases p <;> simp [char?]

end CodePoint

/-- Text is ordered by the values of its code points. -/
abbrev Text := List CodePoint

namespace Text

def ofList (cs : List Char) : Text := cs.map .char

def ofString (s : String) : Text := ofList s.toList

instance : Coe String Text := ⟨ofString⟩

def chars? (t : Text) : Option (List Char) := t.mapM CodePoint.char?

def toString? (t : Text) : Option String := t.chars?.map String.ofList

@[simp] theorem chars?_nil : chars? [] = some [] := by simp [chars?]

theorem chars?_cons (p : CodePoint) (t : Text) :
    chars? (p :: t) = p.char?.bind fun c => (chars? t).map (c :: ·) := by
  cases p <;> simp [chars?]
  cases h : List.mapM CodePoint.char? t <;> simp

@[simp] theorem chars?_ofList (cs : List Char) : chars? (ofList cs) = some cs := by
  induction cs with
  | nil => simp [ofList]
  | cons c cs ih =>
    rw [ofList] at ih
    simp [ofList, chars?_cons, ih]

@[simp] theorem toString?_ofList (cs : List Char) : (ofList cs).toString? = some (String.ofList cs) := by
  simp [toString?]

@[simp] theorem toString?_ofString (s : String) : (ofString s).toString? = some s := by
  simp [toString?, ofString]

theorem ofString_injective {s t : String} (h : ofString s = ofString t) : s = t := by
  have hs := toString?_ofString s
  rw [h, toString?_ofString] at hs
  exact (Option.some.inj hs).symm

@[simp] theorem ofString_inj {s t : String} : ofString s = ofString t ↔ s = t :=
  ⟨ofString_injective, fun h => h ▸ rfl⟩

theorem eq_ofList_of_chars? {t : Text} {cs : List Char} (h : t.chars? = some cs) :
    t = ofList cs := by
  induction t generalizing cs with
  | nil => simp_all [ofList]
  | cons p t ih =>
    rw [chars?_cons] at h
    obtain ⟨c, hc, h⟩ := Option.bind_eq_some_iff.mp h
    obtain ⟨ds, hd, rfl⟩ := Option.map_eq_some_iff.mp h
    rw [CodePoint.char?_eq_some_iff] at hc
    simp [ofList, hc, ih hd]

def le : Text → Text → Bool
  | [], _ => true
  | _ :: _, [] => false
  | p :: s, q :: t => p.value < q.value || (p.value == q.value && le s t)

def sortedDistinct (ts : List Text) : List Text := ts.eraseDups.mergeSort le

end Text

def trimEnds {α : Type} (p : α → Bool) (items : List α) : List α :=
  ((items.dropWhile p).reverse.dropWhile p).reverse

end EventDelivery

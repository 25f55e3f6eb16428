import DataAccess.Text.Case.Table

/-!
# Case conversion

The full Unicode mappings of a text to lower and to upper case. The Greek capital sigma has two
lower-case forms; the final one stands at the end of a word, where a word is read across the
characters that case ignores.
-/

namespace DataAccess.Text

namespace Case

def within (ranges : List (Nat × Nat)) (c : Char) : Bool :=
  ranges.any fun r => r.1 ≤ c.toNat && c.toNat ≤ r.2

def isIgnorable (c : Char) : Bool := within ignorable c

def isCased (c : Char) : Bool := within cased c

def shifted (runs : List Run) (c : Char) : Char :=
  match runs.find? (·.covers c.toNat) with
  | some r => Char.ofNat (c.toNat + r.shift).toNat
  | none => c

def lowerChar (c : Char) : List Char :=
  if c.toNat < 128 then [c.toLower]
  else if c = 'İ' then ['i', '\u0307']
  else [shifted lowerRuns c]

def upperChar (c : Char) : List Char :=
  if c.toNat < 128 then [c.toUpper]
  else match upperExpansions.find? (·.1 == c.toNat) with
    | some e => e.2.map Char.ofNat
    | none => [shifted upperRuns c]

/-- Whether the first character that case does not ignore is a letter with case. -/
def startsCased (cs : List Char) : Bool :=
  ((cs.dropWhile isIgnorable).head?.map isCased).getD false

/-- Lower-cases a text after a word character has been seen or not. -/
def lowerFrom (inWord : Bool) : List Char → List Char
  | [] => []
  | c :: cs =>
    let next := if isIgnorable c then inWord else isCased c
    if c = 'Σ' then
      (if inWord && !startsCased cs then 'ς' else 'σ') :: lowerFrom next cs
    else lowerChar c ++ lowerFrom next cs

theorem lowerChar_ne_nil (c : Char) : lowerChar c ≠ [] := by
  unfold lowerChar
  split
  · simp
  · split <;> simp

theorem lowerFrom_eq_nil_iff {inWord : Bool} {cs : List Char} :
    lowerFrom inWord cs = [] ↔ cs = [] := by
  cases cs with
  | nil => simp [lowerFrom]
  | cons c cs =>
    simp only [lowerFrom]
    split <;> simp [lowerChar_ne_nil]

end Case

def toLower (s : String) : String := String.ofList (Case.lowerFrom false s.toList)

theorem toLower_eq_empty_iff {s : String} : toLower s = "" ↔ s = "" := by
  rw [← String.toList_inj, ← String.toList_inj, toLower, String.toList_ofList]
  exact Case.lowerFrom_eq_nil_iff

def toUpper (s : String) : String := String.ofList (s.toList.flatMap Case.upperChar)

/-- Two codes are alike when they differ in case at most. -/
def alike (a b : String) : Bool := a == b || toLower a == toLower b

theorem alike_iff {a b : String} : alike a b = true ↔ toLower a = toLower b := by
  simp only [alike, Bool.or_eq_true, beq_iff_eq, or_iff_right_iff_imp]
  exact congrArg toLower

end DataAccess.Text

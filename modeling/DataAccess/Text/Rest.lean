/-!
# What is left of a text

A reader that takes something off the front of a text returns what is left together with the fact
that it is shorter. Reading in a loop therefore ends.
-/

namespace DataAccess.Text

/-- What is left of a text after a part of it was taken off. -/
abbrev Rest (cs : List Char) := { r : List Char // r.length < cs.length }

namespace Rest

def tail (c : Char) (cs : List Char) : Rest (c :: cs) := ⟨cs, Nat.lt_succ_self _⟩

def cons {cs : List Char} (c : Char) (r : Rest cs) : Rest (c :: cs) :=
  ⟨r.1, Nat.lt_succ_of_lt r.2⟩

/-- What is left of a text that is no longer than another one. -/
def widen {cs ds : List Char} (h : ds.length ≤ cs.length) (r : Rest ds) : Rest cs :=
  ⟨r.1, Nat.lt_of_lt_of_le r.2 h⟩

/-- What is left after a further reading. -/
def trans {cs : List Char} (r : Rest cs) (s : Rest r.1) : Rest cs :=
  ⟨s.1, Nat.lt_trans s.2 r.2⟩

end Rest

end DataAccess.Text

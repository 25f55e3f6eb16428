import DataAccess.Decimal.FloatText
import DataAccess.Decimal.Reader
import DataAccess.Proofs.Decimal.Binary
import DataAccess.Proofs.Decimal.Interval

/-!
# Texts of binary numbers

The digits of a number are read back as its shortest decimal, which is in the interval of no other
number: so different finite numbers have different texts (`write_injective`).
-/

namespace DataAccess.Decimal

section Digits

variable {cs ds whole fraction rest : List Char} {e : Int} {q : ℚ}

theorem trimZeros_append (cs : List Char) :
    (trimZeros cs).1 ++ List.replicate (trimZeros cs).2 '0' = cs := by
  have split := List.takeWhile_append_dropWhile (p := (· = '0')) (l := cs.reverse)
  have zeros : cs.reverse.takeWhile (· = '0') =
      List.replicate (cs.reverse.takeWhile (· = '0')).length '0' := by
    apply List.eq_replicate_of_mem
    intro c hc
    simpa using List.mem_takeWhile_imp hc
  have lengths := congrArg List.length split
  rw [List.length_append, List.length_reverse] at lengths
  have count : (trimZeros cs).2 = (cs.reverse.takeWhile (· = '0')).length := by
    simp only [trimZeros, List.length_reverse]
    omega
  have whole := congrArg List.reverse split
  rw [List.reverse_append, List.reverse_reverse, zeros, List.reverse_replicate] at whole
  rw [count]
  exact whole

/-- A text is read as a number. -/
def WritesRat (cs : List Char) (q : ℚ) : Prop := ∃ d, unsigned? cs = some d ∧ d.toRat = q

theorem WritesRat.unique {q' : ℚ} (h : WritesRat cs q) (h' : WritesRat cs q') : q = q' := by
  obtain ⟨d, read, rfl⟩ := h
  obtain ⟨d', read', rfl⟩ := h'
  rw [Option.some.inj (read.symm.trans read')]

theorem writesRat_of_point (whole fraction rest : List Char)
    (written : cs = whole ++ '.' :: (fraction ++ rest)) (hw : ∀ c ∈ whole, c.isDigit = true)
    (hf : ∀ c ∈ fraction, c.isDigit = true) (nonempty : whole ≠ [])
    (stop : ∀ c ∈ rest.head?, c.isDigit = false) (read : exponent? rest = some e)
    (eq : (value (whole ++ fraction) : ℚ) * 10 ^ (e - fraction.length) = q) : WritesRat cs q := by
  refine ⟨⟨value (whole ++ fraction), e - fraction.length⟩, ?_, eq⟩
  rw [written, unsigned?, spanDigits_append hw (by simp)]
  simp [spanDigits_append hf stop, nonempty, read]

theorem writesRat_of_whole (whole rest : List Char) (written : cs = whole ++ rest)
    (hw : ∀ c ∈ whole, c.isDigit = true) (nonempty : whole ≠ [])
    (stop : ∀ c ∈ rest.head?, c.isDigit = false ∧ c ≠ '.') (read : exponent? rest = some e)
    (eq : (value whole : ℚ) * 10 ^ e = q) : WritesRat cs q := by
  refine ⟨⟨value whole, e⟩, ?_, eq⟩
  rw [written, unsigned?, spanDigits_append hw fun c hc => (stop c hc).1]
  dsimp only
  split
  · exact absurd rfl (stop '.' rfl).2
  · simp [nonempty, read]

theorem takeSign_of_isDigit {c : Char} (digit : c.isDigit = true) :
    takeSign (c :: cs) = (false, c :: cs) := by
  unfold takeSign
  split
  · rename_i minus
    cases minus
    cases digit
  · rename_i plus
    cases plus
    cases digit
  · rfl

theorem exponent?_signed (plus : Bool) (e : Int) :
    exponent? ('e' :: ((if e < 0 then ['-'] else if plus then ['+'] else []) ++ chars e.natAbs)) =
      some e := by
  have digits : ∀ c ∈ chars e.natAbs, c.isDigit = true := fun c => isDigit_of_mem_chars
  have sign : takeSign ((if e < 0 then ['-'] else if plus then ['+'] else []) ++ chars e.natAbs) =
      (decide (e < 0), chars e.natAbs) := by
    split
    · rename_i negative
      simp [takeSign, negative]
    · rename_i positive
      split
      · simp [takeSign, positive]
      · obtain ⟨c, cs, written⟩ := List.exists_cons_of_length_pos (length_chars_pos e.natAbs)
        rw [written] at digits ⊢
        rw [List.nil_append, takeSign_of_isDigit (digits c List.mem_cons_self)]
        simp [positive]
  have nonempty := List.ne_nil_of_length_pos (length_chars_pos e.natAbs)
  rw [exponent?, if_pos (.inl rfl), sign]
  rcases lt_or_ge e 0 with negative | positive
  · simp [nonempty, List.all_eq_true.mpr digits, negative, abs_of_neg negative]
  · simp [nonempty, List.all_eq_true.mpr digits, not_lt.mpr positive, abs_of_nonneg positive]

end Digits

namespace FloatText

variable {t : FloatText} {x y : Float} {ds : List Char} {lead : Int}

theorem isDigit_of_mem_zeros {n : Nat} {c : Char} (h : c ∈ List.replicate n '0') :
    c.isDigit = true := by
  rw [List.eq_of_mem_replicate h]
  rfl

theorem writesRat_positional (digits : ∀ c ∈ ds, c.isDigit = true) (nonempty : ds ≠ []) :
    WritesRat (positional ds lead) (value ds * 10 ^ (lead + 1 - ds.length)) := by
  unfold positional
  split
  · rename_i small
    apply writesRat_of_point ['0'] (List.replicate (-lead - 1).toNat '0' ++ ds) []
    case read => rfl
    case hf =>
      intro c hc
      rcases List.mem_append.mp hc with hc | hc
      · exact isDigit_of_mem_zeros hc
      · exact digits c hc
    case eq =>
      rw [show ['0'] = List.replicate 1 '0' from rfl, value_zeros_append, value_zeros_append,
        List.length_append, List.length_replicate]
      congr 2
      push_cast
      omega
    case written => simp
    all_goals simp
  · rename_i large
    dsimp only
    split
    · rename_i short
      apply writesRat_of_point (ds ++ List.replicate (lead.toNat + 1 - ds.length) '0') ['0'] []
      case read => rfl
      case written => simp
      case hw =>
        intro c hc
        rcases List.mem_append.mp hc with hc | hc
        · exact digits c hc
        · exact isDigit_of_mem_zeros hc
      case eq =>
        rw [List.append_assoc, ← List.replicate_succ', value_append_zeros]
        rw [show lead + 1 - (ds.length : ℤ) = ((lead.toNat + 1 - ds.length : ℕ) : ℤ) by omega,
          zpow_natCast, pow_succ, List.length_singleton]
        push_cast
        norm_num
        ring
      all_goals simp [nonempty]
    · rename_i long
      apply writesRat_of_point (ds.take (lead.toNat + 1)) (ds.drop (lead.toNat + 1)) []
      case read => rfl
      case written => simp
      case hw => exact fun c hc => digits c (List.mem_of_mem_take hc)
      case hf => exact fun c hc => digits c (List.mem_of_mem_drop hc)
      case eq =>
        rw [List.take_append_drop, List.length_drop]
        congr 2
        omega
      all_goals simp [nonempty]

theorem writesRat_scientific (digits : ∀ c ∈ ds, c.isDigit = true) (nonempty : ds ≠ []) :
    WritesRat (t.scientific ds lead) (value ds * 10 ^ (lead + 1 - ds.length)) := by
  have read := exponent?_signed t.plus lead
  unfold scientific
  match ds, nonempty with
  | [d], _ =>
    apply writesRat_of_whole [d] _ _ digits (List.cons_ne_nil _ _) _ read
    · simp
    · simp
    · simp
  | d :: e :: es, _ =>
    rw [List.forall_mem_cons] at digits
    apply writesRat_of_point [d] (e :: es) _ _ (by simpa using digits.1) digits.2
      (List.cons_ne_nil _ _) _ read
    · simp
    · simp
    · simp

/-- Zeros at the end count as powers of ten. -/
theorem toRat_trimmed (d : Scientific) :
    (value (trimZeros (chars d.digits)).1 : ℚ) *
      10 ^ (d.exponent + (trimZeros (chars d.digits)).2) = d.toRat := by
  have whole : (value (trimZeros (chars d.digits)).1 : ℚ) * 10 ^ (trimZeros (chars d.digits)).2 =
      d.digits := by
    have digits := value_append_zeros (trimZeros (chars d.digits)).1 (trimZeros (chars d.digits)).2
    rw [trimZeros_append, value_chars] at digits
    exact_mod_cast digits.symm
  rw [Scientific.toRat, ← whole, zpow_add₀ (by norm_num), zpow_natCast]
  ring

theorem isDigit_of_mem_trimZeros {n : Nat} {c : Char} (h : c ∈ (trimZeros (chars n)).1) :
    c.isDigit = true := by
  apply isDigit_of_mem_chars (n := n)
  rw [← trimZeros_append (chars n)]
  exact List.mem_append_left _ h

theorem shortest_toRat_pos (tieUp : Bool) (positive : 0 < x.toBits.toNat % 0x8000000000000000) :
    0 < (shortest tieUp x).toRat :=
  Interval.Contains.pos positive (contains_shortest tieUp positive)

theorem trimZeros_shortest_ne_nil (tieUp : Bool)
    (positive : 0 < x.toBits.toNat % 0x8000000000000000) :
    (trimZeros (chars (shortest tieUp x).digits)).1 ≠ [] := by
  intro empty
  have above := shortest_toRat_pos tieUp positive
  rw [← toRat_trimmed, empty] at above
  simp [value] at above

theorem writesRat_magnitude (positive : 0 < x.toBits.toNat % 0x8000000000000000) :
    WritesRat (t.magnitude x) (shortest t.tieUp x).toRat := by
  unfold magnitude
  have nonempty := trimZeros_shortest_ne_nil t.tieUp positive
  have digits : ∀ c ∈ (trimZeros (chars (shortest t.tieUp x).digits)).1, c.isDigit = true :=
    fun c => isDigit_of_mem_trimZeros
  rw [← toRat_trimmed]
  generalize shortest t.tieUp x = d at *
  dsimp only
  generalize trimZeros (chars d.digits) = trimmed at *
  obtain ⟨ds, zeros⟩ := trimmed
  dsimp only at nonempty digits ⊢
  generalize leads : d.exponent + zeros + ds.length - 1 = lead
  have exponent : d.exponent + zeros = lead + 1 - ds.length := by omega
  rw [exponent]
  split
  · exact writesRat_positional digits nonempty
  · exact writesRat_scientific digits nonempty

/-- The digits of a finite number, without its sign. -/
def size (t : FloatText) (x : Float) : List Char := if x == 0 then "0.0".toList else t.magnitude x

theorem toList_write (finite : x.isFinite) : (t.write x).toList =
    if x.toBits.toNat < 0x8000000000000000 then t.size x else '-' :: t.size x := by
  rw [write, isNaN_eq_false finite, isInf_eq_false finite]
  exact String.toList_ofList

theorem size_of_zero (zero : x.toBits.toNat % 0x8000000000000000 = 0) :
    t.size x = "0.0".toList := if_pos (beq_zero_iff.mpr zero)

theorem size_of_pos (positive : 0 < x.toBits.toNat % 0x8000000000000000) :
    t.size x = t.magnitude x := by
  apply if_neg
  rw [beq_zero_iff]
  exact positive.ne'

theorem writesRat_size (x : Float) : WritesRat (t.size x)
    (if x.toBits.toNat % 0x8000000000000000 = 0 then 0 else (shortest t.tieUp x).toRat) := by
  split
  · rename_i zero
    rw [size_of_zero zero]
    exact ⟨⟨0, -1⟩, by decide, by simp [Scientific.toRat]⟩
  · rename_i positive
    rw [size_of_pos (Nat.pos_of_ne_zero positive)]
    exact writesRat_magnitude (Nat.pos_of_ne_zero positive)

/-- Nothing that is read as a number without a sign starts with a minus. -/
theorem size_ne_minus (x : Float) (cs : List Char) : t.size x ≠ '-' :: cs := by
  intro minus
  obtain ⟨d, read, -⟩ := writesRat_size (t := t) x
  have span : spanDigits ('-' :: cs) = ([], '-' :: cs) := rfl
  rw [minus, unsigned?, span] at read
  simp at read

theorem size_injective (h : t.size x = t.size y) :
    x.toBits.toNat % 0x8000000000000000 = y.toBits.toNat % 0x8000000000000000 := by
  have same := (writesRat_size (t := t) x).unique (h ▸ writesRat_size y)
  split at same
  · rename_i zero
    split at same
    · rename_i zero'
      rw [zero, zero']
    · rename_i positive'
      exact absurd same (shortest_toRat_pos t.tieUp (Nat.pos_of_ne_zero positive')).ne
  · rename_i positive
    have inside := contains_shortest t.tieUp (Nat.pos_of_ne_zero positive)
    split at same
    · exact absurd same (shortest_toRat_pos t.tieUp (Nat.pos_of_ne_zero positive)).ne'
    · rename_i positive'
      rw [same] at inside
      exact Interval.eq_of_contains (Nat.pos_of_ne_zero positive) (Nat.pos_of_ne_zero positive')
        inside (contains_shortest t.tieUp (Nat.pos_of_ne_zero positive'))

theorem write_injective (hx : x.isFinite) (hy : y.isFinite) (h : t.write x = t.write y) :
    x = y := by
  have texts := congrArg String.toList h
  rw [toList_write hx, toList_write hy] at texts
  have boundx := x.toBits.toNat_lt
  have boundy := y.toBits.toNat_lt
  apply eq_of_toBits_toNat_eq
  split at texts
  · split at texts
    · have same := size_injective texts
      omega
    · exact absurd texts (size_ne_minus x _)
  · split at texts
    · exact absurd texts.symm (size_ne_minus y _)
    · rw [List.cons.injEq] at texts
      have same := size_injective texts.2
      omega

/-- The characters of numbers. -/
def IsNumeral (c : Char) : Prop := c.isDigit = true ∨ c = '.' ∨ c = 'e' ∨ c = '-' ∨ c = '+'

instance : DecidablePred IsNumeral := fun c =>
  inferInstanceAs (Decidable (c.isDigit = true ∨ c = '.' ∨ c = 'e' ∨ c = '-' ∨ c = '+'))

theorem isNumeral_of_mem_positional (digits : ∀ c ∈ ds, c.isDigit = true) :
    ∀ c ∈ positional ds lead, IsNumeral c := by
  have zeros (n : Nat) : ∀ c ∈ List.replicate n '0', IsNumeral c :=
    fun c hc => .inl (isDigit_of_mem_zeros hc)
  unfold positional
  split
  · simp only [List.forall_mem_append]
    exact ⟨⟨by simp [IsNumeral], zeros _⟩, fun c hc => .inl (digits c hc)⟩
  · dsimp only
    split
    · simp only [List.forall_mem_append]
      exact ⟨⟨fun c hc => .inl (digits c hc), zeros _⟩, by simp [IsNumeral]⟩
    · simp only [List.forall_mem_append, List.forall_mem_cons]
      refine ⟨fun c hc => .inl (digits c (List.mem_of_mem_take hc)), by decide, ?_⟩
      exact fun c hc => .inl (digits c (List.mem_of_mem_drop hc))

theorem isNumeral_of_mem_scientific (digits : ∀ c ∈ ds, c.isDigit = true) :
    ∀ c ∈ t.scientific ds lead, IsNumeral c := by
  have sign : ∀ c ∈ if lead < 0 then ['-'] else if t.plus then ['+'] else [], IsNumeral c := by
    split
    · simp [IsNumeral]
    · split <;> simp [IsNumeral]
  unfold scientific
  simp only [List.forall_mem_append, List.forall_mem_cons]
  refine ⟨⟨?_, by decide, sign⟩, fun c hc => .inl (isDigit_of_mem_chars hc)⟩
  split
  · simp only [List.forall_mem_cons] at digits ⊢
    exact ⟨.inl digits.1, by decide, .inl digits.2.1, fun c hc => .inl (digits.2.2 c hc)⟩
  · exact fun c hc => .inl (digits c hc)

theorem isNumeral_of_mem_magnitude : ∀ c ∈ t.magnitude x, IsNumeral c := by
  have digits : ∀ c ∈ (trimZeros (chars (shortest t.tieUp x).digits)).1, c.isDigit = true :=
    fun c => isDigit_of_mem_trimZeros
  simp only [magnitude]
  split
  · exact isNumeral_of_mem_positional digits
  · exact isNumeral_of_mem_scientific digits

theorem isNumeral_of_mem_size : ∀ c ∈ t.size x, IsNumeral c := by
  unfold size
  split
  · simp [IsNumeral]
  · exact isNumeral_of_mem_magnitude

theorem isNumeral_of_mem_write (finite : x.isFinite) {c : Char} (h : c ∈ (t.write x).toList) :
    IsNumeral c := by
  rw [toList_write finite] at h
  split at h
  · exact isNumeral_of_mem_size c h
  · rcases List.mem_cons.mp h with rfl | h
    · decide
    · exact isNumeral_of_mem_size c h

theorem exists_mem_positional : '.' ∈ positional ds lead := by
  unfold positional
  split
  · simp
  · dsimp only
    split <;> simp

theorem exists_mem_scientific : 'e' ∈ t.scientific ds lead := by
  unfold scientific
  simp

theorem exists_mem_size : ∃ c ∈ t.size x, c = '.' ∨ c = 'e' := by
  unfold size
  split
  · exact ⟨'.', by simp, .inl rfl⟩
  · simp only [magnitude]
    split
    · exact ⟨'.', exists_mem_positional, .inl rfl⟩
    · exact ⟨'e', exists_mem_scientific, .inr rfl⟩

/-- No integer is written as a binary number is. -/
theorem exists_mem_write (finite : x.isFinite) : ∃ c ∈ (t.write x).toList, c = '.' ∨ c = 'e' := by
  rw [toList_write finite]
  obtain ⟨c, hc, mark⟩ := exists_mem_size (t := t) (x := x)
  split
  · exact ⟨c, hc, mark⟩
  · exact ⟨c, List.mem_cons_of_mem _ hc, mark⟩

end FloatText

end DataAccess.Decimal

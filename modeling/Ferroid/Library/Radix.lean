import Mathlib.Algebra.Order.Group.Nat
import Mathlib.Data.List.Induction
import Mathlib.Data.Nat.Basic

/-!
Contract: fixed-length big-endian digit strings in any base.

Owns the digits of a number padded to a given length, the value of a digit
string, that the two are inverse on strings of proper digits, and that strings of
one length compare as their values do.

Does not own alphabets or bit packing.
-/

namespace Ferroid.Library.Radix

/-- The `count` last base-`base` digits of a number, most significant first. -/
def digits (base : Nat) : Nat → Nat → List Nat
  | 0, _ => []
  | count + 1, number => digits base count (number / base) ++ [number % base]

/-- The number a digit string denotes. -/
def value (base : Nat) (string : List Nat) : Nat :=
  string.foldl (fun number digit => number * base + digit) 0

variable {base : Nat}

@[simp] theorem length_digits (count number : Nat) : (digits base count number).length = count := by
  induction count generalizing number with
  | zero => rfl
  | succ count inductionHypothesis => simp [digits, inductionHypothesis]

theorem digit_lt (positive : 0 < base) {count number digit : Nat}
    (member : digit ∈ digits base count number) : digit < base := by
  induction count generalizing number with
  | zero => simp [digits] at member
  | succ count inductionHypothesis =>
      rcases List.mem_append.mp member with earlier | last
      · exact inductionHypothesis earlier
      · rw [List.mem_singleton.mp last]
        exact Nat.mod_lt _ positive

@[simp] theorem value_nil : value base [] = 0 :=
  rfl

theorem value_append_singleton (string : List Nat) (digit : Nat) :
    value base (string ++ [digit]) = value base string * base + digit := by
  simp only [value, List.foldl_append, List.foldl_cons, List.foldl_nil]

/-- The running value of a left fold, in terms of the value of the rest. -/
theorem foldl_eq_value (start : Nat) (string : List Nat) :
    string.foldl (fun number digit => number * base + digit) start =
      start * base ^ string.length + value base string := by
  induction string using List.reverseRecOn generalizing start with
  | nil => simp
  | append_singleton rest digit inductionHypothesis =>
      rw [List.foldl_append, List.foldl_cons, List.foldl_nil, inductionHypothesis,
        value_append_singleton, List.length_append, List.length_singleton, Nat.pow_succ,
        Nat.add_mul, Nat.mul_assoc, Nat.add_assoc]

theorem value_cons (digit : Nat) (string : List Nat) :
    value base (digit :: string) = digit * base ^ string.length + value base string := by
  rw [value, List.foldl_cons, foldl_eq_value, Nat.zero_mul, Nat.zero_add]

theorem value_lt {string : List Nat}
    (proper : ∀ digit ∈ string, digit < base) : value base string < base ^ string.length := by
  induction string with
  | nil => simp
  | cons digit rest inductionHypothesis =>
      have digitLt := proper digit (by simp)
      have restLt := inductionHypothesis fun other member => proper other (by simp [member])
      rw [value_cons, List.length_cons, Nat.pow_succ]
      calc digit * base ^ rest.length + value base rest
          < digit * base ^ rest.length + base ^ rest.length := by omega
        _ = (digit + 1) * base ^ rest.length := by rw [Nat.succ_mul]
        _ ≤ base * base ^ rest.length := Nat.mul_le_mul_right _ digitLt
        _ = base ^ rest.length * base := Nat.mul_comm _ _

/-- Reading back padded digits loses only what did not fit. -/
theorem value_digits (count number : Nat) :
    value base (digits base count number) = number % base ^ count := by
  induction count generalizing number with
  | zero => simp [digits, Nat.mod_one]
  | succ count inductionHypothesis =>
      rw [digits, value_append_singleton, inductionHypothesis, Nat.pow_succ', Nat.mod_mul,
        Nat.mul_comm base, Nat.add_comm]

/-- A string of proper digits is the padded digits of its value. -/
theorem digits_value (positive : 0 < base) {string : List Nat}
    (proper : ∀ digit ∈ string, digit < base) :
    digits base string.length (value base string) = string := by
  induction string using List.reverseRecOn with
  | nil => rfl
  | append_singleton rest digit inductionHypothesis =>
      have digitLt := proper digit (by simp)
      have restProper : ∀ other ∈ rest, other < base :=
        fun other member => proper other (by simp [member])
      rw [List.length_append, List.length_singleton, digits, value_append_singleton,
        Nat.mul_comm, Nat.mul_add_mod, Nat.mod_eq_of_lt digitLt, Nat.mul_add_div positive,
        Nat.div_eq_of_lt digitLt, Nat.add_zero, inductionHypothesis restProper]

/-- Reducing a value modulo a multiple of the weight of the leading digit reduces
the leading digit. -/
theorem value_cons_mod (positive : 0 < base) (modulus digit : Nat) {string : List Nat}
    (proper : ∀ other ∈ string, other < base) :
    value base (digit :: string) % (base ^ string.length * modulus) =
      value base (digit % modulus :: string) := by
  have restLt := value_lt proper
  rw [value_cons, value_cons, Nat.mod_mul, Nat.mul_comm digit, Nat.mul_add_mod,
    Nat.mod_eq_of_lt restLt, Nat.mul_add_div (Nat.pow_pos positive), Nat.div_eq_of_lt restLt,
    Nat.add_zero, Nat.add_comm, Nat.mul_comm (digit % modulus)]

/-! ## Order -/

/-- Two-place values compare lexicographically by their places. -/
theorem place_lt_iff {weight high low otherHigh otherLow : Nat} (small : low < weight)
    (otherSmall : otherLow < weight) :
    high * weight + low < otherHigh * weight + otherLow ↔
      high < otherHigh ∨ high = otherHigh ∧ low < otherLow := by
  rcases Nat.lt_trichotomy high otherHigh with below | equal | above
  · have gap : (high + 1) * weight ≤ otherHigh * weight := Nat.mul_le_mul_right _ below
    rw [Nat.add_mul, Nat.one_mul] at gap
    constructor
    · intro _
      exact Or.inl below
    · intro _
      omega
  · subst equal
    constructor
    · intro less
      exact Or.inr ⟨rfl, by omega⟩
    · rintro (absurdLess | ⟨_, less⟩)
      · exact absurd absurdLess (Nat.lt_irrefl _)
      · omega
  · have gap : (otherHigh + 1) * weight ≤ high * weight := Nat.mul_le_mul_right _ above
    rw [Nat.add_mul, Nat.one_mul] at gap
    constructor
    · intro less
      omega
    · rintro (absurdLess | ⟨absurdEqual, _⟩) <;> omega

/-- Digit strings of one length compare lexicographically as their values do. -/
theorem lt_iff_value_lt {left right : List Nat} (sameLength : left.length = right.length)
    (leftProper : ∀ digit ∈ left, digit < base) (rightProper : ∀ digit ∈ right, digit < base) :
    left < right ↔ value base left < value base right := by
  induction left generalizing right with
  | nil =>
      have empty : right = [] := List.length_eq_zero_iff.mp sameLength.symm
      subst empty
      simp
  | cons digit rest inductionHypothesis =>
      cases right with
      | nil => cases sameLength
      | cons otherDigit otherRest =>
          have restLength : rest.length = otherRest.length := Nat.succ.inj sameLength
          have restProper : ∀ other ∈ rest, other < base :=
            fun other member => leftProper other (List.mem_cons_of_mem _ member)
          have otherProper : ∀ other ∈ otherRest, other < base :=
            fun other member => rightProper other (List.mem_cons_of_mem _ member)
          have small : value base rest < base ^ otherRest.length := by
            rw [← restLength]
            exact value_lt restProper
          rw [List.cons_lt_cons_iff, inductionHypothesis restLength restProper otherProper,
            value_cons, value_cons, restLength, place_lt_iff small (value_lt otherProper)]

/-- Padded digits compare lexicographically as the numbers they are the digits of. -/
theorem digits_lt_iff (positive : 0 < base) {count left right : Nat}
    (leftFits : left < base ^ count) (rightFits : right < base ^ count) :
    digits base count left < digits base count right ↔ left < right := by
  rw [lt_iff_value_lt (by rw [length_digits, length_digits])
    (fun _ member => digit_lt positive member) (fun _ member => digit_lt positive member),
    value_digits, value_digits, Nat.mod_eq_of_lt leftFits, Nat.mod_eq_of_lt rightFits]

/-- Spelling digits with symbols in ascending order keeps the order of strings. -/
theorem map_lt_map_iff {Symbol : Type} [LT Symbol] {spell : Nat → Symbol}
    (ascending : ∀ left right, left < base → right < base →
      (spell left < spell right ↔ left < right))
    (injective : ∀ left right, left < base → right < base → spell left = spell right →
      left = right)
    {left right : List Nat} (leftProper : ∀ digit ∈ left, digit < base)
    (rightProper : ∀ digit ∈ right, digit < base) :
    left.map spell < right.map spell ↔ left < right := by
  induction left generalizing right with
  | nil => cases right <;> simp
  | cons digit rest inductionHypothesis =>
      cases right with
      | nil => simp
      | cons otherDigit otherRest =>
          have digitLt := leftProper digit List.mem_cons_self
          have otherLt := rightProper otherDigit List.mem_cons_self
          have same : spell digit = spell otherDigit ↔ digit = otherDigit :=
            ⟨injective digit otherDigit digitLt otherLt, congrArg spell⟩
          rw [List.map_cons, List.map_cons, List.cons_lt_cons_iff, List.cons_lt_cons_iff,
            ascending digit otherDigit digitLt otherLt, same,
            inductionHypothesis
              (fun other member => leftProper other (List.mem_cons_of_mem _ member))
              (fun other member => rightProper other (List.mem_cons_of_mem _ member))]

/-! ## Bytes -/

/-- The big-endian bytes of a number. -/
def beBytes (count number : Nat) : List UInt8 := (digits 256 count number).map Nat.toUInt8

@[simp] theorem length_beBytes (count number : Nat) : (beBytes count number).length = count := by
  rw [beBytes, List.length_map, length_digits]

theorem value_beBytes (count number : Nat) :
    value 256 ((beBytes count number).map UInt8.toNat) = number % 256 ^ count := by
  have bytes : (beBytes count number).map UInt8.toNat = digits 256 count number := by
    rw [beBytes, List.map_map]
    conv_rhs => rw [← List.map_id (digits 256 count number)]
    apply List.map_congr_left
    intro digit member
    have small := digit_lt (by decide) member
    rw [Function.comp_apply, Nat.toUInt8_eq, UInt8.toNat_ofNat', Nat.mod_eq_of_lt small, id]
  rw [bytes, value_digits]

theorem toNat_proper (bytes : List UInt8) : ∀ digit ∈ bytes.map UInt8.toNat, digit < 256 := by
  intro digit member
  obtain ⟨b, _, rfl⟩ := List.mem_map.mp member
  exact b.toNat_lt

/-- Bytes are the big-endian bytes of the number they spell. -/
theorem beBytes_value (bytes : List UInt8) :
    beBytes bytes.length (value 256 (bytes.map UInt8.toNat)) = bytes := by
  have spelled := digits_value (by decide) (toNat_proper bytes)
  rw [List.length_map] at spelled
  rw [beBytes, spelled, List.map_map]
  conv_rhs => rw [← List.map_id bytes]
  apply List.map_congr_left
  intro b _
  rw [Function.comp_apply, Nat.toUInt8_eq, UInt8.ofNat_toNat, id]

/-- Bytes of one length compare lexicographically as the numbers they spell. -/
theorem beBytes_lt_iff {count left right : Nat} (leftFits : left < 256 ^ count)
    (rightFits : right < 256 ^ count) :
    beBytes count left < beBytes count right ↔ left < right := by
  have toNat_toUInt8 : ∀ digit, digit < 256 → digit.toUInt8.toNat = digit := by
    intro digit small
    rw [Nat.toUInt8_eq, UInt8.toNat_ofNat', Nat.mod_eq_of_lt small]
  have proper : ∀ number, ∀ digit ∈ digits 256 count number, digit < 256 :=
    fun number digit member => digit_lt (by decide) member
  rw [beBytes, beBytes, map_lt_map_iff ?_ ?_ (proper left) (proper right),
    digits_lt_iff (by decide) leftFits rightFits]
  · intro first second firstLt secondLt
    rw [UInt8.lt_iff_toNat_lt, toNat_toUInt8 first firstLt, toNat_toUInt8 second secondLt]
  · intro first second firstLt secondLt same
    rw [← toNat_toUInt8 first firstLt, same, toNat_toUInt8 second secondLt]

end Ferroid.Library.Radix

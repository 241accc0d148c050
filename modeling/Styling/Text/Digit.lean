/-!
# Decimal digits

The characters that stand for a decimal digit in some script. Each script has its ten digits in
a row, so a script is known by its digit zero.
-/

namespace Styling.Text

/-- The zeros of the scripts that have decimal digits, in ascending order. -/
def digitZeros : List Nat :=
  [0x30, 0x660, 0x6f0, 0x7c0, 0x966, 0x9e6, 0xa66, 0xae6, 0xb66, 0xbe6, 0xc66, 0xce6, 0xd66,
   0xde6, 0xe50, 0xed0, 0xf20, 0x1040, 0x1090, 0x17e0, 0x1810, 0x1946, 0x19d0, 0x1a80, 0x1a90,
   0x1b50, 0x1bb0, 0x1c40, 0x1c50, 0xa620, 0xa8d0, 0xa900, 0xa9d0, 0xa9f0, 0xaa50, 0xabf0, 0xff10,
   0x104a0, 0x10d30, 0x11066, 0x110f0, 0x11136, 0x111d0, 0x112f0, 0x11450, 0x114d0, 0x11650,
   0x116c0, 0x11730, 0x118e0, 0x11950, 0x11c50, 0x11d50, 0x11da0, 0x16a60, 0x16ac0, 0x16b50,
   0x1d7ce, 0x1d7d8, 0x1d7e2, 0x1d7ec, 0x1d7f6, 0x1e140, 0x1e2f0, 0x1e950, 0x1fbf0]

/-- The value of a character as a decimal digit. -/
def digitValue? (c : Char) : Option Nat :=
  if c.toNat < 0x80 then
    if 0x30 ≤ c.toNat && c.toNat ≤ 0x39 then some (c.toNat - 0x30) else none
  else (digitZeros.find? fun z => z ≤ c.toNat && c.toNat ≤ z + 9).map (c.toNat - ·)

/-- A decimal digit of any script. -/
def isDigit (c : Char) : Bool := (digitValue? c).isSome

/-- One of the ten digits 0 to 9. -/
def isBasicDigit (c : Char) : Bool := '0' ≤ c && c ≤ '9'

/-- The number that a run of decimal digits writes; other characters count as zero. -/
def digitsValue (s : List Char) : Nat :=
  s.foldl (fun n c => 10 * n + (digitValue? c).getD 0) 0

/-- One of the digits 0 to 9 and a to f, of either case. -/
def isHexDigit (c : Char) : Bool :=
  isBasicDigit c || ('a' ≤ c && c ≤ 'f') || ('A' ≤ c && c ≤ 'F')

/-- The value of a character as a hexadecimal digit, zero for any other character. -/
def hexValue (c : Char) : Nat :=
  if isBasicDigit c then c.toNat - 0x30
  else if 'a' ≤ c && c ≤ 'f' then c.toNat - 0x57
  else if 'A' ≤ c && c ≤ 'F' then c.toNat - 0x37
  else 0

/-- The lower-case hexadecimal digit of a value below sixteen. -/
def hexDigit (n : Nat) : Char :=
  if n < 10 then Char.ofNat (0x30 + n) else Char.ofNat (0x57 + n)

theorem hexValue_hexDigit {n : Nat} (h : n < 16) : hexValue (hexDigit n) = n := by
  have all : ∀ m ∈ List.range 16, hexValue (hexDigit m) = m := by decide
  exact all n (List.mem_range.2 h)

theorem isHexDigit_hexDigit {n : Nat} (h : n < 16) : isHexDigit (hexDigit n) = true := by
  have all : ∀ m ∈ List.range 16, isHexDigit (hexDigit m) = true := by decide
  exact all n (List.mem_range.2 h)

theorem isDigit_of_isBasicDigit {c : Char} (h : isBasicDigit c = true) : isDigit c = true := by
  simp only [isBasicDigit, Bool.and_eq_true, decide_eq_true_eq, Char.le_def] at h
  have h1 : 0x30 ≤ c.toNat := UInt32.le_iff_toNat_le.1 h.1
  have h2 : c.toNat ≤ 0x39 := UInt32.le_iff_toNat_le.1 h.2
  have h3 : c.toNat < 0x80 := by omega
  simp [isDigit, digitValue?, h1, h2, h3]

end Styling.Text

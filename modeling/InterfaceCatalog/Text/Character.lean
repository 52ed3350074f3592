import InterfaceCatalog.Text.Alphabetic

namespace InterfaceCatalog

def inRanges (ranges : List (Nat × Nat)) (n : Nat) : Bool :=
  ranges.any fun (first, last) => first ≤ n && n ≤ last

def isAsciiDigit (c : Char) : Bool :=
  '0' ≤ c && c ≤ '9'

def isAsciiLetter (c : Char) : Bool :=
  ('a' ≤ c && c ≤ 'z') || ('A' ≤ c && c ≤ 'Z')

def isHexDigit (c : Char) : Bool :=
  isAsciiDigit c || ('a' ≤ c && c ≤ 'f') || ('A' ≤ c && c ≤ 'F')

/-- The characters that separate: the property White_Space. -/
def isBlank (c : Char) : Bool :=
  inRanges [(0x9, 0xD), (0x20, 0x20), (0x85, 0x85), (0xA0, 0xA0), (0x1680, 0x1680),
    (0x2000, 0x200A), (0x2028, 0x2029), (0x202F, 0x202F), (0x205F, 0x205F),
    (0x3000, 0x3000)] c.toNat

def isAlphabetic (c : Char) : Bool :=
  if c.toNat < 128 then isAsciiLetter c else inRanges alphabeticRanges c.toNat

def isAlphanumeric (c : Char) : Bool :=
  if c.toNat < 128 then isAsciiLetter c || isAsciiDigit c
  else inRanges alphabeticRanges c.toNat || inRanges numeralRanges c.toNat

theorem isAlphanumeric_of_isAlphabetic {c : Char} (h : isAlphabetic c) : isAlphanumeric c := by
  unfold isAlphabetic at h
  unfold isAlphanumeric
  split at h <;> simp_all

theorem isAlphanumeric_of_isAsciiDigit {c : Char} (h : isAsciiDigit c) : isAlphanumeric c := by
  have hc : c.toNat < 128 := by
    simp only [isAsciiDigit, Bool.and_eq_true, decide_eq_true_eq] at h
    exact Nat.lt_of_le_of_lt (UInt32.le_iff_toNat_le.mp h.2) (by decide)
  simp [isAlphanumeric, hc, h]

/-- A digit as a number; letters continue after nine. -/
def digitValue (c : Char) : Nat :=
  if isAsciiDigit c then c.toNat - 48
  else if 'a' ≤ c && c ≤ 'z' then c.toNat - 87
  else c.toNat - 55

/-- The number that a row of digits denotes, most significant first. -/
def ofDigits (radix : Nat) (digits : List Char) : Nat :=
  digits.foldl (fun n c => radix * n + digitValue c) 0

def asciiLower (c : Char) : Char :=
  if 'A' ≤ c && c ≤ 'Z' then Char.ofNat (c.toNat + 32) else c

def utf8Length (cs : List Char) : Nat :=
  cs.foldr (fun c n => c.utf8Size + n) 0

end InterfaceCatalog

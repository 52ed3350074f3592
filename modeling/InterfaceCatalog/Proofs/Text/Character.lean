import InterfaceCatalog.Text.Character

namespace InterfaceCatalog

variable {c : Char}

theorem char_le_iff {c d : Char} : c ≤ d ↔ c.toNat ≤ d.toNat :=
  UInt32.le_iff_toNat_le

theorem isAsciiDigit_iff : isAsciiDigit c ↔ 48 ≤ c.toNat ∧ c.toNat ≤ 57 := by
  simp [isAsciiDigit, char_le_iff]

theorem isAsciiLetter_iff :
    isAsciiLetter c ↔ (97 ≤ c.toNat ∧ c.toNat ≤ 122) ∨ (65 ≤ c.toNat ∧ c.toNat ≤ 90) := by
  simp [isAsciiLetter, char_le_iff]

theorem isHexDigit_iff : isHexDigit c ↔ (48 ≤ c.toNat ∧ c.toNat ≤ 57) ∨
    (97 ≤ c.toNat ∧ c.toNat ≤ 102) ∨ (65 ≤ c.toNat ∧ c.toNat ≤ 70) := by
  simp [isHexDigit, isAsciiDigit, char_le_iff, or_assoc]

theorem isAlphanumeric_of_isHexDigit (h : isHexDigit c) : isAlphanumeric c := by
  have hc := isHexDigit_iff.mp h
  have hletter := @isAsciiLetter_iff c
  have hdigit := @isAsciiDigit_iff c
  have hlt : c.toNat < 128 := by omega
  simp only [isAlphanumeric, hlt, if_true, Bool.or_eq_true, hletter, hdigit]
  omega

theorem not_isAlphabetic_of_isAsciiDigit (h : isAsciiDigit c) : ¬ isAlphabetic c := by
  have hc := isAsciiDigit_iff.mp h
  have hlt : c.toNat < 128 := by omega
  simp only [isAlphabetic, hlt, if_true, isAsciiLetter_iff]
  omega

def blankPoints : List Nat :=
  [0x9, 0xA, 0xB, 0xC, 0xD, 0x20, 0x85, 0xA0, 0x1680, 0x2000, 0x2001, 0x2002, 0x2003,
    0x2004, 0x2005, 0x2006, 0x2007, 0x2008, 0x2009, 0x200A, 0x2028, 0x2029, 0x202F, 0x205F, 0x3000]

theorem mem_blankPoints_of_isBlank (h : isBlank c) : c.toNat ∈ blankPoints := by
  simp only [isBlank, inRanges, List.any_cons, List.any_nil, Bool.or_eq_true, Bool.and_eq_true,
    decide_eq_true_eq, Bool.false_eq_true, or_false] at h
  simp only [blankPoints, List.mem_cons, List.not_mem_nil, or_false]
  omega

theorem blankPoints_separate : ∀ n ∈ blankPoints, n < 128 ∧ (n < 48 ∧ n ≠ 46) ∨
    128 ≤ n ∧ inRanges alphabeticRanges n = false ∧ inRanges numeralRanges n = false := by
  decide +kernel

theorem not_isAlphanumeric_of_isBlank (h : isBlank c) : ¬ isAlphanumeric c := by
  have hletter := @isAsciiLetter_iff c
  have hdigit := @isAsciiDigit_iff c
  obtain ⟨hlt, hlow, -⟩ | ⟨hge, halpha, hnumeral⟩ :=
    blankPoints_separate _ (mem_blankPoints_of_isBlank h)
  · simp only [isAlphanumeric, hlt, if_true, Bool.or_eq_true, hletter, hdigit]
    omega
  · simp [isAlphanumeric, Nat.not_lt.mpr hge, halpha, hnumeral]

/-- A character becomes what it is, or the letter 32 places after it. -/
theorem asciiLower_toNat : (asciiLower c).toNat = c.toNat ∨
    (65 ≤ c.toNat ∧ c.toNat ≤ 90 ∧ (asciiLower c).toNat = c.toNat + 32) := by
  unfold asciiLower
  simp only [Bool.and_eq_true, decide_eq_true_eq, char_le_iff]
  split
  next h =>
    have hvalid : (c.toNat + 32).isValidChar :=
      .inl (Nat.lt_of_le_of_lt (Nat.add_le_add_right h.2 32) (by decide))
    have heq : Char.ofNat (c.toNat + 32) = Char.ofNatAux (c.toNat + 32) hvalid := dif_pos hvalid
    refine .inr ⟨h.1, h.2, ?_⟩
    rw [heq]
    exact UInt32.toNat_ofNatLT ..
  next h => exact .inl rfl

end InterfaceCatalog

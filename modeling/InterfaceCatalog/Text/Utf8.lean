namespace InterfaceCatalog

abbrev Bytes := List UInt8

def encodeUtf8 (text : String) : Bytes := text.toUTF8.toList

/-- What a first byte asks for: its share of the code point, the range of the second byte, and the
number of bytes after the second. -/
structure Utf8Lead where
  bits : Nat
  low : Nat
  high : Nat
  more : Nat

def utf8Lead? (b : Nat) : Option Utf8Lead :=
  if b < 0xC2 then none
  else if b < 0xE0 then some ⟨b - 0xC0, 0x80, 0xBF, 0⟩
  else if b = 0xE0 then some ⟨0, 0xA0, 0xBF, 1⟩
  else if b = 0xED then some ⟨0xD, 0x80, 0x9F, 1⟩
  else if b < 0xF0 then some ⟨b - 0xE0, 0x80, 0xBF, 1⟩
  else if b = 0xF0 then some ⟨0, 0x90, 0xBF, 2⟩
  else if b < 0xF4 then some ⟨b - 0xF0, 0x80, 0xBF, 2⟩
  else if b = 0xF4 then some ⟨4, 0x80, 0x8F, 2⟩
  else none

/-- The code point that `n` further bytes complete, or the number of fitting ones among them. -/
def utf8Tail : (n code taken : Nat) → Bytes → Except Nat (Nat × Nat)
  | 0, code, taken, _ => .ok (code, taken)
  | _ + 1, _, taken, [] => .error taken
  | n + 1, code, taken, b :: bs =>
    if 0x80 ≤ b.toNat ∧ b.toNat < 0xC0 then
      utf8Tail n (code * 64 + (b.toNat - 0x80)) (taken + 1) bs
    else .error taken

/-- The character at the head of `b :: bs` and its length, or the length of the fault there. -/
def utf8Head (b : UInt8) (bs : Bytes) : Except Nat (Char × Nat) :=
  if b.toNat < 0x80 then .ok (Char.ofNat b.toNat, 1)
  else
    match utf8Lead? b.toNat, bs with
    | some lead, second :: rest =>
      if lead.low ≤ second.toNat ∧ second.toNat ≤ lead.high then
        (utf8Tail lead.more (lead.bits * 64 + (second.toNat - 0x80)) 2 rest).map
          fun (code, n) => (Char.ofNat code, n)
      else .error 1
    | _, _ => .error 1

/-- The characters up to the first fault, and its offset if there is one. -/
def utf8Decode : (fuel offset : Nat) → Bytes → List Char × Option Nat
  | 0, _, _ | _, _, [] => ([], none)
  | fuel + 1, offset, b :: bs =>
    match utf8Head b bs with
    | .error _ => ([], some offset)
    | .ok (c, n) =>
      let (cs, fault) := utf8Decode fuel (offset + n) (bs.drop (n - 1))
      (c :: cs, fault)

/-- The characters, with U+FFFD for each fault. -/
def utf8Lossy : (fuel : Nat) → Bytes → List Char
  | 0, _ | _, [] => []
  | fuel + 1, b :: bs =>
    match utf8Head b bs with
    | .error n => Char.ofNat 0xFFFD :: utf8Lossy fuel (bs.drop (n - 1))
    | .ok (c, n) => c :: utf8Lossy fuel (bs.drop (n - 1))

def decodeUtf8 (bs : Bytes) : Except Nat String :=
  match utf8Decode bs.length 0 bs with
  | (cs, none) => .ok (String.ofList cs)
  | (_, some offset) => .error offset

def displayUtf8 (bs : Bytes) : String :=
  String.ofList (utf8Lossy bs.length bs)

def byteOrderMark : Bytes := [0xEF, 0xBB, 0xBF]

/-- The text of a file. A byte order mark in front is no part of it, but counts in offsets. -/
def decodeText (bs : Bytes) : Except Nat String :=
  if byteOrderMark.isPrefixOf bs then
    (decodeUtf8 (bs.drop 3)).mapError (· + 3)
  else decodeUtf8 bs

end InterfaceCatalog

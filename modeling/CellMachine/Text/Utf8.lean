/-! # Bytes and symbols

Program texts and input lines are byte strings that need not be well-formed UTF-8. They are read
as symbols: a symbol is a character with a well-formed encoding, or one byte that starts none.
Every byte belongs to exactly one symbol, so positions can be counted both in bytes and in symbols.
-/

namespace CellMachine.Text

/-- A unit of text: a character, or a byte at which no well-formed encoding starts. -/
inductive Symbol where
  | char (c : Char)
  | bad (byte : UInt8)
  deriving DecidableEq, Repr, Inhabited

namespace Utf8

def width (c : Char) : Nat :=
  if c.toNat < 0x80 then 1
  else if c.toNat < 0x800 then 2
  else if c.toNat < 0x10000 then 3
  else 4

def encodeChar (c : Char) : List UInt8 :=
  let n := c.toNat
  if n < 0x80 then [n.toUInt8]
  else if n < 0x800 then [(0xc0 + n / 0x40).toUInt8, (0x80 + n % 0x40).toUInt8]
  else if n < 0x10000 then
    [(0xe0 + n / 0x1000).toUInt8, (0x80 + n / 0x40 % 0x40).toUInt8, (0x80 + n % 0x40).toUInt8]
  else
    [(0xf0 + n / 0x40000).toUInt8, (0x80 + n / 0x1000 % 0x40).toUInt8,
      (0x80 + n / 0x40 % 0x40).toUInt8, (0x80 + n % 0x40).toUInt8]

def encode (text : List Char) : List UInt8 :=
  text.flatMap encodeChar

/-- The payload of a continuation byte. -/
def tail? (b : UInt8) : Option Nat :=
  if 0x80 ≤ b ∧ b < 0xc0 then some (b.toNat - 0x80) else none

/-- A character made from the number read off a sequence, refused below the least number that
needs a sequence of this length and where no character exists. -/
def scalar? (least n : Nat) : Option Char :=
  if least ≤ n ∧ n.isValidChar then some (Char.ofNat n) else none

/-- The character whose encoding starts with the byte `lead` and goes on in `rest`, with the number
of bytes that it takes from `rest`. -/
def char? (lead : UInt8) (rest : List UInt8) : Option (Char × Nat) :=
  if lead < 0x80 then some (Char.ofNat lead.toNat, 0)
  else if 0xc0 ≤ lead ∧ lead < 0xe0 then
    match rest with
    | b₁ :: _ => do
      let t₁ ← tail? b₁
      let c ← scalar? 0x80 ((lead.toNat - 0xc0) * 0x40 + t₁)
      return (c, 1)
    | _ => none
  else if 0xe0 ≤ lead ∧ lead < 0xf0 then
    match rest with
    | b₁ :: b₂ :: _ => do
      let t₁ ← tail? b₁
      let t₂ ← tail? b₂
      let c ← scalar? 0x800 ((lead.toNat - 0xe0) * 0x1000 + t₁ * 0x40 + t₂)
      return (c, 2)
    | _ => none
  else if 0xf0 ≤ lead ∧ lead < 0xf8 then
    match rest with
    | b₁ :: b₂ :: b₃ :: _ => do
      let t₁ ← tail? b₁
      let t₂ ← tail? b₂
      let t₃ ← tail? b₃
      let c ← scalar? 0x10000 ((lead.toNat - 0xf0) * 0x40000 + t₁ * 0x1000 + t₂ * 0x40 + t₃)
      return (c, 3)
    | _ => none
  else none

/-- The symbols of a byte string after its first `skip` bytes. -/
def decodeAfter : (skip : Nat) → List UInt8 → List Symbol
  | _, [] => []
  | skip + 1, _ :: rest => decodeAfter skip rest
  | 0, byte :: rest =>
    match char? byte rest with
    | some (c, taken) => .char c :: decodeAfter taken rest
    | none => .bad byte :: decodeAfter 0 rest

def decode (bytes : List UInt8) : List Symbol :=
  decodeAfter 0 bytes

end Utf8

namespace Symbol

def width : Symbol → Nat
  | char c => Utf8.width c
  | bad _ => 1

def bytes : Symbol → List UInt8
  | char c => Utf8.encodeChar c
  | bad b => [b]

/-- The character of a symbol, a bad byte being shown as the replacement character. -/
def shown : Symbol → Char
  | char c => c
  | bad _ => '\ufffd'

def is (s : Symbol) (c : Char) : Bool :=
  match s with
  | char d => d == c
  | bad _ => false

def ofString (text : String) : List Symbol :=
  text.toList.map char

/-- The text of a list of symbols, bad bytes being shown as replacement characters. -/
def toText (symbols : List Symbol) : String :=
  String.ofList (symbols.map shown)

end Symbol

end CellMachine.Text

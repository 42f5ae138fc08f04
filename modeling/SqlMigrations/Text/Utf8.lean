/-!
# Decoding UTF-8

Bytes are decoded whole or refused with the place of the first byte that is not part of a
well-formed sequence.
-/

namespace SqlMigrations.Utf8

/-- Where decoding stops: after `valid` good bytes, either at a byte that cannot stand there, with
the length of the longest good beginning of a sequence, or at the end of the bytes within a
sequence. -/
inductive Fault where
  | invalid (valid length : Nat)
  | incomplete (valid : Nat)
  deriving DecidableEq, Repr

def Fault.message : Fault → String
  | .invalid valid length => s!"invalid utf-8 sequence of {length} bytes from index {valid}"
  | .incomplete valid => s!"incomplete utf-8 byte sequence from index {valid}"

/-- The ranges of the bytes that follow a leading byte; a byte that leads nothing has none. -/
def tails? (lead : UInt8) : Option (List (UInt8 × UInt8)) :=
  let any : UInt8 × UInt8 := (0x80, 0xBF)
  if lead < 0x80 then some []
  else if lead < 0xC2 then none
  else if lead < 0xE0 then some [any]
  else if lead = 0xE0 then some [(0xA0, 0xBF), any]
  else if lead = 0xED then some [(0x80, 0x9F), any]
  else if lead < 0xF0 then some [any, any]
  else if lead = 0xF0 then some [(0x90, 0xBF), any, any]
  else if lead < 0xF4 then some [any, any, any]
  else if lead = 0xF4 then some [(0x80, 0x8F), any, any]
  else none

/-- The first fault of some bytes: `owed` are the ranges still to come in the sequence that
began after `valid` good bytes and has `seen` bytes so far. -/
def scan (valid seen : Nat) : List (UInt8 × UInt8) → List UInt8 → Option Fault
  | [], [] => none
  | _ :: _, [] => some (.incomplete valid)
  | (low, high) :: owed, b :: rest =>
    if low ≤ b ∧ b ≤ high then scan valid (seen + 1) owed rest else some (.invalid valid seen)
  | [], b :: rest =>
    match tails? b with
    | some owed => scan (valid + seen) 1 owed rest
    | none => some (.invalid (valid + seen) 1)

/-- The first fault of some bytes. -/
def fault? (bytes : ByteArray) : Option Fault := scan 0 0 [] bytes.data.toList

/-- The text that some bytes encode. -/
def decode (bytes : ByteArray) : Except Fault String :=
  match String.fromUTF8? bytes with
  | some text => .ok text
  | none => .error ((fault? bytes).getD (.incomplete 0))

end SqlMigrations.Utf8

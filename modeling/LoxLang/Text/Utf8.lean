import LoxLang.Number.Text

/-!
# UTF-8

`Utf8.decode` reads bytes as characters, one byte at a time. It refuses the first sequence that
encodes no character and says where that sequence starts and how many of its bytes could still have
begun one. Overlong forms, surrogates and values beyond the last code point are refused at their
second byte.
-/

namespace LoxLang.Utf8

/-- Why bytes are no text. -/
inductive Fault where
  /-- No character starts with these `length` bytes and the byte behind them. -/
  | invalid (length start : Nat)
  /-- The bytes end inside a character. -/
  | incomplete (start : Nat)
deriving DecidableEq, Repr

/-- The wording of a decoding fault. -/
def Fault.message : Fault → String
  | invalid length start =>
    "invalid utf-8 sequence of " ++ naturalText length ++ " bytes from index " ++ naturalText start
  | incomplete start => "incomplete utf-8 byte sequence from index " ++ naturalText start

/-- A character of which some bytes were read. -/
structure Pending where
  /-- The bits read so far. -/
  value : Nat
  /-- How many bytes follow the next one. -/
  remaining : Nat
  /-- The least byte that may come next. -/
  low : Nat
  /-- The greatest byte that may come next. -/
  high : Nat
  /-- How many bytes were read. -/
  length : Nat
  /-- Where the character starts. -/
  start : Nat

/-- What the first byte of a character of several bytes announces. -/
def leading? (start byte : Nat) : Option Pending :=
  let pending (base remaining low high : Nat) : Option Pending :=
    some { value := byte - base, remaining, low, high, length := 1, start }
  if 0xc2 ≤ byte && byte ≤ 0xdf then pending 0xc0 0 0x80 0xbf
  else if byte = 0xe0 then pending 0xe0 1 0xa0 0xbf
  else if byte = 0xed then pending 0xe0 1 0x80 0x9f
  else if 0xe1 ≤ byte && byte ≤ 0xef then pending 0xe0 1 0x80 0xbf
  else if byte = 0xf0 then pending 0xf0 2 0x90 0xbf
  else if 0xf1 ≤ byte && byte ≤ 0xf3 then pending 0xf0 2 0x80 0xbf
  else if byte = 0xf4 then pending 0xf0 2 0x80 0x8f
  else none

/-- Decode bytes from an index on, `pending` being the character that was begun before. -/
def decodeFrom (index : Nat) : Option Pending → List UInt8 → Except Fault (List Char)
  | none, [] => .ok []
  | some begun, [] => .error (.incomplete begun.start)
  | none, byte :: rest =>
    if byte.toNat < 0x80 then
      return Char.ofNat byte.toNat :: (← decodeFrom (index + 1) none rest)
    else
      match leading? index byte.toNat with
      | none => .error (.invalid 1 index)
      | some begun => decodeFrom (index + 1) (some begun) rest
  | some begun, byte :: rest =>
    if begun.low ≤ byte.toNat && byte.toNat ≤ begun.high then
      let value := begun.value * 64 + (byte.toNat - 0x80)
      match begun.remaining with
      | 0 => return Char.ofNat value :: (← decodeFrom (index + 1) none rest)
      | remaining + 1 =>
        decodeFrom (index + 1)
          (some { value, remaining, low := 0x80, high := 0xbf, length := begun.length + 1,
                  start := begun.start }) rest
    else .error (.invalid begun.length begun.start)

/-- Decode bytes as a text. -/
def decode (bytes : List UInt8) : Except Fault String :=
  String.ofList <$> decodeFrom 0 none bytes

end LoxLang.Utf8

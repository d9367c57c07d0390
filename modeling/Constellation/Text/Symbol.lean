set_option autoImplicit false

/-!
# Bytes read as text

Files are bytes. This module reads bytes as a list of symbols, which never fails: a symbol is a
character, or a stray byte that belongs to no character.

## Main definitions

* `Symbol` — a character or a stray byte.
* `Symbol.ofBytes` — the symbols of a content.
* `Symbol.bytes` — the bytes of a symbol.
* `Symbol.text` — the text that symbols spell with a replacement mark for each stray byte.

## Main results

* `Symbol.ofBytes_toUTF8` — an encoded text is read as its own characters.

## Design

A content that is valid throughout is read in one go. In any other content each position is tried
on its own: where a character is encoded it is taken as a whole, and otherwise one byte is stray.
As every byte of a character beyond ASCII has its top bit set, an ASCII byte always stands for the
character itself, so separators are found alike in valid and in damaged contents.
-/

namespace Constellation

/-- A piece of a content: a character, or a byte that belongs to no character. -/
inductive Symbol
  /-- An encoded character. -/
  | char (c : Char)
  /-- A byte that is part of no encoded character. -/
  | stray (byte : UInt8)
  deriving DecidableEq

namespace Symbol

/-- The bytes that a symbol stands for. -/
def bytes : Symbol → List UInt8
  | char c => String.utf8EncodeChar c
  | stray byte => [byte]

/-- The number of bytes that a symbol stands for. -/
def width : Symbol → Nat
  | char c => c.utf8Size
  | stray _ => 1

/-- Reads a damaged content from position `i` on, with at most `fuel` symbols. -/
def scan (content : ByteArray) : (fuel i : Nat) → List Symbol → List Symbol
  | 0, _, done => done.reverse
  | fuel + 1, i, done =>
    if h : i < content.size then
      match content.utf8DecodeChar? i with
      | some c => scan content fuel (i + c.utf8Size) (char c :: done)
      | none => scan content fuel (i + 1) (stray content[i] :: done)
    else done.reverse

/-- The symbols of a content. Each takes at least one byte, so the size bounds their number. -/
def ofBytes (content : ByteArray) : List Symbol :=
  match String.fromUTF8? content with
  | some text => text.toList.map char
  | none => scan content content.size 0 []

/-- The symbols of a text. -/
def ofText (text : String) : List Symbol := text.toList.map char

/-- The text that symbols spell, with a replacement character for each stray byte. -/
def text (symbols : List Symbol) : String :=
  String.ofList (symbols.map fun
    | char c => c
    | stray _ => '\uFFFD')

/-- The encoding of a text is read as that text. -/
theorem fromUTF8?_toUTF8 (text : String) : String.fromUTF8? text.toUTF8 = some text := by
  rw [String.fromUTF8?, String.toUTF8_eq_toByteArray, dif_pos text.isValidUTF8]
  rfl

/-- **An encoded text is read as its own characters.** -/
theorem ofBytes_toUTF8 (text : String) : ofBytes text.toUTF8 = ofText text := by
  rw [ofBytes, fromUTF8?_toUTF8, ofText]

end Symbol

end Constellation

set_option autoImplicit false

/-!
# Replacing a literal pattern

Templates are filled by replacing each occurrence of a literal pattern, from left to right and
without overlap.

## Main definitions

* `replaceAll` — replaces every occurrence of a pattern.
* `replaceFirst` — replaces the leftmost occurrence of a pattern.

## Design

The text is read once, symbol by symbol. After an occurrence, the rest of it is passed over by a
countdown, so that the recursion follows the text. The empty pattern occurs around each character.
-/

namespace Constellation

/-- Replaces the occurrences of a nonempty pattern in what follows the next `skip` characters,
which belong to an occurrence that has been replaced already. -/
def replaceFrom (pattern replacement : List Char) : (skip : Nat) → List Char → List Char
  | _, [] => []
  | skip + 1, _ :: rest => replaceFrom pattern replacement skip rest
  | 0, c :: rest =>
    if pattern.isPrefixOf (c :: rest) then
      replacement ++ replaceFrom pattern replacement (pattern.length - 1) rest
    else c :: replaceFrom pattern replacement 0 rest

/-- Replaces every occurrence of `pattern`, from left to right and without overlap. -/
def replaceAll (pattern replacement text : List Char) : List Char :=
  if pattern.isEmpty then replacement ++ text.flatMap fun c => c :: replacement
  else replaceFrom pattern replacement 0 text

/-- Replaces the leftmost occurrence of `pattern`, if there is one. -/
def replaceFirst (pattern replacement : List Char) : List Char → List Char
  | [] => if pattern.isEmpty then replacement else []
  | c :: rest =>
    if pattern.isPrefixOf (c :: rest) then replacement ++ (c :: rest).drop pattern.length
    else c :: replaceFirst pattern replacement rest

end Constellation

/-!
# White space around a text

Hex digits, addresses and revision names may stand between white space, in the sense of the
Unicode property `White_Space`. That set is larger than the one of `Char.isWhitespace`: besides the
blanks of ASCII it holds the next-line control, the no-break space and the typographic spaces. It
does not hold the zero-width space, the byte-order mark or the separators `U+001C` to `U+001F`.
-/

namespace EvmDispatch.Text

/-- The characters of the Unicode property `White_Space`. -/
def isBlank (c : Char) : Bool :=
  let n := c.toNat
  (0x09 ≤ n && n ≤ 0x0d) || n == 0x20 || n == 0x85 || n == 0xa0 || n == 0x1680 ||
    (0x2000 ≤ n && n ≤ 0x200a) || n == 0x2028 || n == 0x2029 || n == 0x202f || n == 0x205f ||
    n == 0x3000

/-- Drops the white space at both ends. -/
def trim (cs : List Char) : List Char :=
  ((cs.dropWhile isBlank).reverse.dropWhile isBlank).reverse

/-- Drops one leading `0x`. A second one, or `0X`, stays. -/
def dropHexMark : List Char → List Char
  | '0' :: 'x' :: rest => rest
  | cs => cs

end EvmDispatch.Text

/-!
# White space

The characters with Unicode's `White_Space` property (`isBlank_iff`), and the removal of such
characters from both ends of a text.
-/

namespace CallGate.Text

/-- The ranges of code points with the `White_Space` property, first and last included. -/
def blankRanges : List (Nat × Nat) :=
  [(0x09, 0x0D), (0x20, 0x20), (0x85, 0x85), (0xA0, 0xA0), (0x1680, 0x1680), (0x2000, 0x200A),
    (0x2028, 0x2029), (0x202F, 0x202F), (0x205F, 0x205F), (0x3000, 0x3000)]

/-- Whether a character is white space. -/
def isBlank (c : Char) : Bool :=
  blankRanges.any fun (first, last) => first ≤ c.toNat && c.toNat ≤ last

/-- The characters in these ranges are the twenty-five that Unicode lists as white space: the
controls from tab to carriage return, the space, the next line, the no-break space, the Ogham space
mark, the spaces from the en quad to the hair space, the line and paragraph separators, the narrow
no-break space, the medium mathematical space and the ideographic space. -/
theorem isBlank_iff (c : Char) :
    isBlank c = true ↔
      c ∈ ['\t', '\n', '\x0B', '\x0C', '\r', ' ', '\u0085', '\u00A0', '\u1680', '\u2000', '\u2001',
        '\u2002', '\u2003', '\u2004', '\u2005', '\u2006', '\u2007', '\u2008', '\u2009', '\u200A',
        '\u2028', '\u2029', '\u202F', '\u205F', '\u3000'] := by
  -- On both sides this is about the code point alone.
  simp only [isBlank, blankRanges, List.any_cons, List.any_nil, List.mem_cons, List.not_mem_nil,
    Bool.or_eq_true, Bool.and_eq_true, decide_eq_true_eq, Bool.false_eq_true, or_false,
    ← Char.toNat_inj, Char.reduceToNat]
  omega

/-- A text without the white space at its ends. -/
def trim (text : List Char) : List Char :=
  ((text.dropWhile isBlank).reverse.dropWhile isBlank).reverse

end CallGate.Text

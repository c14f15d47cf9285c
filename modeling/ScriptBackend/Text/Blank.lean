/-! # Blank text

A character is blank when it is white space in the Unicode sense: the ASCII spaces and line
ends, the next-line control, the no-break space and the typographic spaces.  A text is
blank when it has no other character.
-/
namespace ScriptBackend.Text

/-- Whether the character is white space. -/
def isBlankChar (c : Char) : Bool :=
  let n := c.toNat
  (0x09 ≤ n && n ≤ 0x0D) || n = 0x20 || n = 0x85 || n = 0xA0 || n = 0x1680 ||
    (0x2000 ≤ n && n ≤ 0x200A) || n = 0x2028 || n = 0x2029 || n = 0x202F || n = 0x205F ||
    n = 0x3000

/-- Whether the text has no character but white space. -/
def isBlank (s : String) : Bool :=
  s.toList.all isBlankChar

theorem isBlank_eq_true_iff {s : String} :
    isBlank s = true ↔ ∀ c ∈ s.toList, isBlankChar c = true :=
  List.all_eq_true

theorem isBlank_eq_false_iff {s : String} :
    isBlank s = false ↔ ∃ c ∈ s.toList, isBlankChar c = false := by
  simp [isBlank]

end ScriptBackend.Text

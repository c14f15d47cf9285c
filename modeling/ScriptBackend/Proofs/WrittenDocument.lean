import Mathlib.Data.List.Basic
import ScriptBackend.Toml.Document

/-! # Documents that are read back

A simple document has a pair on each line: a key that needs no quotes, an equals sign, and a text
or a list of texts.  This module writes such documents and shows that reading gives back what was
written (`read_document`).

The argument goes up the layers of the reader one by one.  A character is written in a way that
is read as that character, whatever follows (`Quoting.basicBody_escape`), and the same is then
shown of texts, lists, pairs, lines and documents.  On each layer the statement says what may
follow: no further quote on a text, which would make an empty one the beginning of a text on
several lines, and nothing but the end of its line on a pair.
-/
namespace ScriptBackend.Toml

/-! ### What is written -/

/-- A way to write texts between double quotes. -/
structure Quoting where
  /-- The characters that are written by their numbers. -/
  numbered : Char → Bool
  /-- The digits of the numbers. -/
  digit : Nat → Char
  /-- All control characters of ASCII are, a tab apart, which can stand for itself. -/
  numbered_of_control : ∀ c, c.toNat < 0x20 ∧ c ≠ '\t' ∨ c.toNat = 0x7f → numbered c = true
  /-- Four digits are enough. -/
  lt_of_numbered : ∀ c, numbered c = true → c.toNat < 0x10000
  digit_eq : ∀ d < 16, digit d = Nat.digitChar d ∨ digit d = (Nat.digitChar d).toUpper

namespace Quoting

/-- The way that writes all control characters by their numbers, in capital digits. -/
def controls : Quoting where
  numbered c := c.toNat < 0x20 || 0x7f ≤ c.toNat && c.toNat < 0xa0
  digit d := (Nat.digitChar d).toUpper
  numbered_of_control c h := by
    simp only [Bool.or_eq_true, Bool.and_eq_true, decide_eq_true_eq]
    omega
  lt_of_numbered c h := by
    simp only [Bool.or_eq_true, Bool.and_eq_true, decide_eq_true_eq] at h
    omega
  digit_eq _ _ := Or.inr rfl

variable (q : Quoting)

/-- The four digits of a number. -/
def hex (n : Nat) : List Char :=
  [n / 4096 % 16, n / 256 % 16, n / 16 % 16, n % 16].map q.digit

/-- What is written for a character. -/
def escape (c : Char) : List Char :=
  if c = '\x22' then ['\\', '\x22']
  else if c = '\\' then ['\\', '\\']
  else if q.numbered c then '\\' :: 'u' :: q.hex c.toNat
  else [c]

/-- What is written for a text. -/
def quote (s : String) : List Char :=
  '\x22' :: s.toList.flatMap q.escape ++ ['\x22']

end Quoting

/-- What stands after a key: a text or a list of texts. -/
inductive Content where
  | text (s : String)
  | texts (ss : List String)
  deriving DecidableEq, Repr

namespace Content

/-- The value it is read as. -/
def value : Content → Value
  | .text s => .string s
  | .texts ss => .array (ss.map .string)

/-- What is written for it: a list stands in brackets, with commas between the texts. -/
def written (q : Quoting) : Content → List Char
  | .text s => q.quote s
  | .texts ss => '[' :: [',', ' '].intercalate (ss.map q.quote) ++ [']']

end Content

/-- What is written for a key and what stands after it. -/
def pairText (q : Quoting) (p : String × Content) : List Char :=
  p.1.toList ++ ' ' :: '=' :: ' ' :: p.2.written q

/-- The document with a pair on each line.  The last line may lack its end. -/
def document (q : Quoting) (closed : Bool) : List (String × Content) → List Char
  | [] => []
  | [p] => pairText q p ++ if closed then ['\n'] else []
  | p :: pairs => pairText q p ++ '\n' :: document q closed pairs

/-! ### Texts -/

theorem basicBody_quote (rest : List Char) : basicBody ('\x22' :: rest) = some ([], rest) := by
  rw [basicBody]

theorem basicBody_of_escaped {cs rest : List Char} {c : Char} (h : escaped cs = some (c, rest)) :
    basicBody ('\\' :: cs) = push c (basicBody rest) := by
  rw [basicBody]
  split
  case h_1 c' left heq =>
    rw [h] at heq
    cases heq
    rfl
  case h_2 heq =>
    rw [h] at heq
    cases heq

theorem basicBody_of_isBasicChar {c : Char} (h : isBasicChar c = true) (rest : List Char) :
    basicBody (c :: rest) = push c (basicBody rest) := by
  rw [basicBody]
  · rw [if_pos h]
  · rintro rfl
    exact absurd h (by decide)
  · rintro rfl
    exact absurd h (by decide)

/-- After a double quote that is not tripled there is a text on one line. -/
theorem text_of_quote {body : List Char} (h : ∀ r, body ≠ '\x22' :: '\x22' :: r) :
    text ('\x22' :: body) = (basicBody body).map (Prod.map String.ofList id) := by
  unfold text
  split
  case h_1 r heq => exact absurd (List.cons.inj heq).2 (h r)
  case h_2 r heq => exact absurd (List.cons.inj heq).1 (by decide)
  case h_3 => rfl

namespace Quoting

variable (q : Quoting)

theorem isCommentChar_of_not_numbered {c : Char} (h : ¬ q.numbered c = true) :
    isCommentChar c = true := by
  have hspace : ' ' ≤ c ↔ 0x20 ≤ c.toNat := Iff.rfl
  have hcontrol := mt (q.numbered_of_control c) h
  have hdelete : c ≠ '\x7f' := by
    rintro rfl
    exact hcontrol (Or.inr rfl)
  by_cases htab : c = '\t'
  · simp [isCommentChar, htab]
  · have hle : 0x20 ≤ c.toNat := by
      by_contra hlt
      exact hcontrol (Or.inl ⟨Nat.not_le.mp hlt, htab⟩)
    simp [isCommentChar, hspace, hle, hdelete]

theorem digitValue?_digit {d : Nat} (h : d < 16) : digitValue? 16 (q.digit d) = some d := by
  have hdigits : ∀ d < 16, digitValue? 16 (Nat.digitChar d) = some d ∧
      digitValue? 16 (Nat.digitChar d).toUpper = some d := by decide
  rcases q.digit_eq d h with heq | heq
  · rw [heq]
    exact (hdigits d h).1
  · rw [heq]
    exact (hdigits d h).2

theorem scalar?_hex {c : Char} (h : c.toNat < 0x10000) : scalar? (q.hex c.toNat) = some c := by
  have hdigits : (q.hex c.toNat).mapM (digitValue? 16) =
      some [c.toNat / 4096 % 16, c.toNat / 256 % 16, c.toNat / 16 % 16, c.toNat % 16] := by
    simp [hex, q.digitValue?_digit (Nat.mod_lt _ _)]
  have hvalue : ofDigits 16
      [c.toNat / 4096 % 16, c.toNat / 256 % 16, c.toNat / 16 % 16, c.toNat % 16] = c.toNat := by
    simp only [ofDigits, List.foldl_cons, List.foldl_nil]
    omega
  have hvalid : c.toNat.isValidChar := c.valid
  rw [scalar?, hdigits]
  simp only [Option.bind_eq_bind, Option.bind_some, hvalue, if_pos hvalid, Char.ofNat_toNat]

/-- A character is read back, whatever follows. -/
theorem basicBody_escape (c : Char) (rest : List Char) :
    basicBody (q.escape c ++ rest) = push c (basicBody rest) := by
  unfold escape
  split_ifs with hquote hbackslash hnumbered
  · subst hquote
    exact basicBody_of_escaped rfl
  · subst hbackslash
    exact basicBody_of_escaped rfl
  · refine basicBody_of_escaped ?_
    show (scalar? (q.hex c.toNat)).map (·, rest) = some (c, rest)
    rw [q.scalar?_hex (q.lt_of_numbered c hnumbered), Option.map_some]
  · -- all that cannot stand for itself is written in one of the other ways
    refine basicBody_of_isBasicChar ?_ rest
    simp [isBasicChar, q.isCommentChar_of_not_numbered hnumbered, hquote, hbackslash]

theorem basicBody_escapes (cs rest : List Char) :
    basicBody (cs.flatMap q.escape ++ '\x22' :: rest) = some (cs, rest) := by
  induction cs with
  | nil => exact basicBody_quote rest
  | cons c cs ih =>
    rw [List.flatMap_cons, List.append_assoc, basicBody_escape, ih]
    rfl

/-- What is written for a character does not begin with a quote. -/
theorem escape_eq_cons (c : Char) : ∃ d ds, q.escape c = d :: ds ∧ d ≠ '\x22' := by
  unfold escape
  split_ifs with hquote hbackslash hnumbered
  · exact ⟨_, _, rfl, by decide⟩
  · exact ⟨_, _, rfl, by decide⟩
  · exact ⟨_, _, rfl, by decide⟩
  · exact ⟨_, _, rfl, hquote⟩

/-- **A text is read back**, if no further quote follows. -/
theorem text_quote (s : String) {rest : List Char} (hrest : rest.head? ≠ some '\x22') :
    text (q.quote s ++ rest) = some (s, rest) := by
  have hsingle : ∀ r, s.toList.flatMap q.escape ++ '\x22' :: rest ≠ '\x22' :: '\x22' :: r := by
    intro r heq
    cases hs : s.toList with
    | nil =>
      rw [hs] at heq
      exact hrest (by rw [(List.cons.inj heq).2]; rfl)
    | cons c cs =>
      obtain ⟨d, ds, hescape, hd⟩ := q.escape_eq_cons c
      rw [hs, List.flatMap_cons, hescape] at heq
      exact hd (List.cons.inj heq).1
  have hbody : q.quote s ++ rest = '\x22' :: (s.toList.flatMap q.escape ++ '\x22' :: rest) := by
    rw [quote, List.append_assoc]
    rfl
  rw [hbody, text_of_quote hsingle, basicBody_escapes, Option.map_some, Prod.map_apply,
    String.ofList_toList, id]

end Quoting

/-! ### Values -/

variable {q : Quoting} {rest : List Char}

theorem value_quote (limit : Nat) (s : String) (hrest : rest.head? ≠ some '\x22') :
    value limit (q.quote s ++ rest) = some (.string s, rest) := by
  have hscalar : scalar (q.quote s ++ rest) = some (.string s, rest) := by
    rw [scalar, q.text_quote s hrest]
    rfl
  cases limit with
  | zero => exact hscalar
  | succ limit => exact hscalar

theorem items_blank (v : Reader Value) (fuel : Nat) (cs : List Char) :
    items v fuel (' ' :: cs) = items v fuel cs := by
  cases fuel with
  | zero => rfl
  | succ fuel => rfl

/-- The last item is followed by the bracket. -/
theorem items_of_last {v : Reader Value} {body : List Char} {item : Value}
    (h : v ('\x22' :: body) = some (item, ']' :: rest)) (fuel : Nat) :
    items v (fuel + 1) ('\x22' :: body) = some ([item], rest) := by
  show (v ('\x22' :: body)).bind _ = _
  rw [h]
  rfl

/-- Any other item is followed by a comma. -/
theorem items_of_more {v : Reader Value} {body left : List Char} {item : Value}
    {more : List Value} {fuel : Nat} (h : v ('\x22' :: body) = some (item, ',' :: rest))
    (hmore : items v fuel rest = some (more, left)) :
    items v (fuel + 1) ('\x22' :: body) = some (item :: more, left) := by
  show (v ('\x22' :: body)).bind _ = _
  rw [h]
  show (items v fuel rest).bind _ = _
  rw [hmore]
  rfl

theorem items_quotes (limit : Nat) (ss : List String) {fuel : Nat} (hfuel : ss.length < fuel) :
    items (value limit) fuel ([',', ' '].intercalate (ss.map q.quote) ++ ']' :: rest) =
      some (ss.map .string, rest) := by
  induction ss generalizing fuel with
  | nil =>
    obtain ⟨fuel, rfl⟩ := Nat.exists_eq_add_one_of_ne_zero (Nat.ne_zero_of_lt hfuel)
    rfl
  | cons s ss ih =>
    obtain ⟨fuel, rfl⟩ := Nat.exists_eq_add_one_of_ne_zero (Nat.ne_zero_of_lt hfuel)
    cases ss with
    | nil =>
      rw [List.map_singleton, List.intercalate_singleton]
      exact items_of_last (value_quote limit s (by simp)) fuel
    | cons s' ss =>
      rw [List.map_cons, List.map_cons, List.intercalate_cons_cons, List.append_assoc,
        List.append_assoc]
      refine items_of_more (value_quote limit s (by simp)) ?_
      exact (items_blank _ _ _).trans (ih (Nat.lt_of_succ_lt_succ hfuel))

/-- There are at least as many characters as items, so that the bound on items is never met. -/
theorem length_le_length_quotes (q : Quoting) (ss : List String) :
    ss.length ≤ ([',', ' '].intercalate (ss.map q.quote)).length := by
  induction ss with
  | nil => exact Nat.le_refl 0
  | cons s ss ih =>
    cases ss with
    | nil => simp [Quoting.quote]
    | cons s' ss =>
      rw [List.map_cons, List.map_cons, List.intercalate_cons_cons, ← List.map_cons]
      simp only [List.length_append, List.length_cons] at ih ⊢
      omega

/-- **A value is read back**, if no quote follows. -/
theorem value_written (limit : Nat) (content : Content) (hrest : rest.head? ≠ some '\x22') :
    value (limit + 1) (content.written q ++ rest) = some (content.value, rest) := by
  cases content with
  | text s => exact value_quote (limit + 1) s hrest
  | texts ss =>
    have hwritten : (Content.texts ss).written q ++ rest =
        '[' :: ([',', ' '].intercalate (ss.map q.quote) ++ ']' :: rest) := by
      rw [Content.written, List.append_assoc]
      rfl
    have hfuel : ss.length <
        ([',', ' '].intercalate (ss.map q.quote) ++ ']' :: rest).length + 1 := by
      have hlength := length_le_length_quotes q ss
      rw [List.length_append]
      omega
    rw [hwritten]
    show array (value limit) _ = _
    rw [array, items_quotes limit ss hfuel]
    rfl

/-! ### Lines -/

/-- The key needs no quotes. -/
def IsBare (key : String) : Prop :=
  key ≠ "" ∧ ∀ c ∈ key.toList, isKeyChar c = true

variable {key : String} {p : String × Content} {c : Char}

theorem IsBare.toList_eq_cons (h : IsBare key) :
    ∃ c cs, key.toList = c :: cs ∧ isKeyChar c = true := by
  cases hkey : key.toList with
  | nil => exact absurd (String.toList_eq_nil_iff.mp hkey) h.1
  | cons c cs => exact ⟨c, cs, rfl, h.2 c (by rw [hkey]; exact List.mem_cons_self)⟩

theorem pairText_eq_cons (h : IsBare p.1) (rest : List Char) :
    ∃ c cs, pairText q p ++ rest = c :: cs ∧ isKeyChar c = true := by
  obtain ⟨c, cs, hkey, hc⟩ := h.toList_eq_cons
  rw [pairText, hkey]
  exact ⟨c, _, rfl, hc⟩

theorem ne_of_isKeyChar {d : Char} (hc : isKeyChar c = true) (hd : isKeyChar d = false) :
    c ≠ d := by
  rintro rfl
  rw [hc] at hd
  cases hd

theorem skipBlanks_of_isKeyChar (h : isKeyChar c = true) (cs : List Char) :
    skipBlanks (c :: cs) = c :: cs := by
  have hspace : c ≠ ' ' := ne_of_isKeyChar h (by decide)
  have htab : c ≠ '\t' := ne_of_isKeyChar h (by decide)
  exact List.dropWhile_cons_of_neg (by simp [isBlank, hspace, htab])

/-- A line that begins with a key does not end there. -/
theorem finishLine?_of_isKeyChar (h : isKeyChar c = true) (cs : List Char) :
    finishLine? (c :: cs) = none := by
  have hcomment : skipComment (c :: cs) = c :: cs := by
    unfold skipComment
    split
    case h_1 heq => exact absurd (List.cons.inj heq).1 (ne_of_isKeyChar h (by decide))
    case h_2 => rfl
  rw [finishLine?, skipBlanks_of_isKeyChar h, hcomment]
  show lineEnd? (c :: cs) = none
  unfold lineEnd?
  split
  case h_1 heq => exact absurd (List.cons.inj heq).1 (ne_of_isKeyChar h (by decide))
  case h_2 heq => exact absurd (List.cons.inj heq).1 (ne_of_isKeyChar h (by decide))
  case h_3 => rfl

theorem lineContent_of_isKeyChar (h : isKeyChar c = true) (cs : List Char) :
    lineContent (c :: cs) = (pair (value nestingLimit) (c :: cs)).map
      fun ((path, v), rest) => (.pair path v, rest) := by
  unfold lineContent
  split
  case h_1 heq => exact absurd (List.cons.inj heq).1 (ne_of_isKeyChar h (by decide))
  case h_2 => rfl

theorem keyPart_of_isBare (h : IsBare key) (cs : List Char) :
    keyPart (key.toList ++ ' ' :: cs) = some (key, ' ' :: cs) := by
  have htake : (key.toList ++ ' ' :: cs).takeWhile isKeyChar = key.toList := by
    rw [List.takeWhile_append_of_pos h.2, List.takeWhile_cons_of_neg (by decide), List.append_nil]
  have hdrop : (key.toList ++ ' ' :: cs).dropWhile isKeyChar = ' ' :: cs := by
    rw [List.dropWhile_append_of_pos h.2, List.dropWhile_cons_of_neg (by decide)]
  rw [keyPart, htake, hdrop]
  split
  case h_1 heq => exact absurd (String.toList_eq_nil_iff.mp heq) h.1
  case h_2 => rw [String.ofList_toList]

theorem keyPath_of_isBare (h : IsBare key) (limit : Nat) (cs : List Char) :
    keyPath (limit + 1) (key.toList ++ ' ' :: '=' :: cs) = some ([key], '=' :: cs) := by
  have hskip : skipBlanks (key.toList ++ ' ' :: '=' :: cs) = key.toList ++ ' ' :: '=' :: cs := by
    obtain ⟨c, rest, hkey, hc⟩ := h.toList_eq_cons
    rw [hkey, List.cons_append, skipBlanks_of_isKeyChar hc]
  rw [keyPath, hskip, keyPart_of_isBare h]
  rfl

theorem skipBlanks_written (content : Content) :
    skipBlanks (content.written q ++ rest) = content.written q ++ rest := by
  cases content with
  | text s => rfl
  | texts ss => rfl

theorem pair_pairText (h : IsBare p.1) (hrest : rest.head? ≠ some '\x22') :
    pair (value nestingLimit) (pairText q p ++ rest) = some (([p.1], p.2.value), rest) := by
  have htext : pairText q p ++ rest =
      p.1.toList ++ ' ' :: '=' :: (' ' :: (p.2.written q ++ rest)) := by
    rw [pairText, List.append_assoc]
    rfl
  obtain ⟨limit, hlimit⟩ : ∃ limit, nestingLimit = limit + 1 := ⟨_, rfl⟩
  rw [htext, pair, hlimit, keyPath_of_isBare h]
  show (value (limit + 1) (skipBlanks (p.2.written q ++ rest))).bind _ = _
  rw [skipBlanks_written, value_written limit p.2 hrest]
  rfl

/-- The rest of a document after a pair: the end of its line and `next`, or nothing. -/
def EndsLine (rest next : List Char) : Prop :=
  rest = '\n' :: next ∨ rest = [] ∧ next = []

theorem EndsLine.finishLine? {next : List Char} (h : EndsLine rest next) :
    finishLine? rest = some next ∧ rest.head? ≠ some '\x22' := by
  rcases h with rfl | ⟨rfl, rfl⟩
  · exact ⟨rfl, by simp⟩
  · exact ⟨rfl, by simp⟩

theorem EndsLine.length_le {next : List Char} (h : EndsLine rest next) :
    next.length ≤ rest.length := by
  rcases h with rfl | ⟨rfl, rfl⟩
  · exact Nat.le_succ _
  · exact Nat.le_refl 0

/-- **A line is read back.** -/
theorem line_pairText {next : List Char} (h : IsBare p.1) (hend : EndsLine rest next) :
    line (pairText q p ++ rest) = some (.pair [p.1] p.2.value, next) := by
  obtain ⟨hfinish, hrest⟩ := hend.finishLine?
  have hpair := pair_pairText (q := q) h hrest
  obtain ⟨c, cs, htext, hc⟩ := pairText_eq_cons (q := q) h rest
  rw [htext] at hpair ⊢
  rw [line, finishLine?_of_isKeyChar hc, skipBlanks_of_isKeyChar hc, lineContent_of_isKeyChar hc,
    hpair]
  show (Toml.finishLine? rest).bind _ = _
  rw [hfinish]
  rfl

/-! ### Documents -/

variable {closed : Bool} {pairs : List (String × Content)}

theorem document_cons (q : Quoting) (closed : Bool) (p : String × Content)
    (pairs : List (String × Content)) :
    ∃ rest, document q closed (p :: pairs) = pairText q p ++ rest ∧
      EndsLine rest (document q closed pairs) := by
  cases pairs with
  | nil =>
    cases closed with
    | true => exact ⟨['\n'], rfl, Or.inl rfl⟩
    | false => exact ⟨[], rfl, Or.inr ⟨rfl, rfl⟩⟩
  | cons p' pairs => exact ⟨_, rfl, Or.inl rfl⟩

theorem lines_of_line {cs : List Char} {l : Line} {ls : List Line} {fuel : Nat}
    (h : line (c :: cs) = some (l, rest)) (hls : lines fuel rest = some ls) :
    lines (fuel + 1) (c :: cs) = some (l :: ls) := by
  show (line (c :: cs)).bind _ = _
  rw [h]
  show (lines fuel rest).bind _ = _
  rw [hls]
  rfl

theorem lines_document (closed : Bool) (hbare : ∀ p ∈ pairs, IsBare p.1) {fuel : Nat}
    (hfuel : pairs.length < fuel) :
    lines fuel (document q closed pairs) = some (pairs.map fun p => .pair [p.1] p.2.value) := by
  induction pairs generalizing fuel with
  | nil =>
    obtain ⟨fuel, rfl⟩ := Nat.exists_eq_add_one_of_ne_zero (Nat.ne_zero_of_lt hfuel)
    rfl
  | cons p pairs ih =>
    obtain ⟨fuel, rfl⟩ := Nat.exists_eq_add_one_of_ne_zero (Nat.ne_zero_of_lt hfuel)
    obtain ⟨hp, hpairs⟩ := List.forall_mem_cons.mp hbare
    obtain ⟨rest, hdocument, hend⟩ := document_cons q closed p pairs
    obtain ⟨c, cs, htext, -⟩ := pairText_eq_cons (q := q) hp rest
    have hline := line_pairText (q := q) hp hend
    rw [htext] at hline
    rw [hdocument, htext]
    exact lines_of_line hline (ih hpairs (Nat.lt_of_succ_lt_succ hfuel))

/-- There are at least as many characters as lines, so that the bound on lines is never met. -/
theorem length_le_length_document (q : Quoting) (closed : Bool)
    (pairs : List (String × Content)) : pairs.length ≤ (document q closed pairs).length := by
  induction pairs with
  | nil => exact Nat.zero_le _
  | cons p pairs ih =>
    obtain ⟨rest, hdocument, hend⟩ := document_cons q closed p pairs
    have hpair : 0 < (pairText q p).length := by
      rw [pairText, List.length_append]
      exact Nat.add_pos_right _ (Nat.succ_pos _)
    have hnext : (document q closed pairs).length ≤ rest.length := hend.length_le
    rw [hdocument, List.length_append, List.length_cons]
    omega

/-- A document begins with no mark, as no key does. -/
theorem dropMark_document (hbare : ∀ p ∈ pairs, IsBare p.1) :
    dropMark (document q closed pairs) = document q closed pairs := by
  cases pairs with
  | nil => rfl
  | cons p pairs =>
    obtain ⟨rest, hdocument, -⟩ := document_cons q closed p pairs
    obtain ⟨c, cs, htext, hc⟩ := pairText_eq_cons (q := q) (hbare p List.mem_cons_self) rest
    rw [hdocument, htext]
    unfold dropMark
    split
    case h_1 heq => exact absurd (List.cons.inj heq).1 (ne_of_isKeyChar hc (by decide))
    case h_2 => rfl

theorem sectionsFrom_pairs (h : Header) (above pairs : List (KeyPath × Value)) :
    sectionsFrom h above (pairs.map fun p => .pair p.1 p.2) = [⟨h, above ++ pairs⟩] := by
  induction pairs generalizing above with
  | nil =>
    rw [List.append_nil]
    rfl
  | cons p pairs ih =>
    rw [List.map_cons, sectionsFrom, ih, List.append_assoc]
    rfl

/-- Distinct keys of one part each get their values. -/
theorem assignAll_single (entries pairs : Entries) (h : ((entries ++ pairs).map Prod.fst).Nodup) :
    Entries.assignAll entries (pairs.map fun p => ([p.1], p.2)) = some (entries ++ pairs) := by
  induction pairs generalizing entries with
  | nil =>
    rw [List.append_nil]
    rfl
  | cons p pairs ih =>
    have hnew : p.1 ∉ entries.map Prod.fst := by
      intro hmem
      rw [List.map_append, List.nodup_append] at h
      exact h.2.2 p.1 hmem p.1 List.mem_cons_self rfl
    have hfree : List.lookup p.1 entries = none := by
      refine List.lookup_eq_none_iff.mpr fun entry hentry => bne_iff_ne.mpr fun heq => ?_
      exact hnew (heq ▸ List.mem_map_of_mem hentry)
    have hassign : Entries.assign true [p.1] p.2 entries = some (entries ++ [p]) := by
      simp [Entries.assign, hfree, Entries.append]
    rw [List.append_cons] at h ⊢
    rw [List.map_cons, Entries.assignAll, List.foldlM_cons]
    show (Entries.assign true [p.1] p.2 entries).bind _ = _
    rw [hassign]
    exact ih (entries ++ [p]) h

/-- **A document is read back**: the table has the pairs in their order. -/
theorem read_document (hbare : ∀ p ∈ pairs, IsBare p.1) (hkeys : (pairs.map Prod.fst).Nodup) :
    read (String.ofList (document q closed pairs)) =
      some (pairs.map fun p => (p.1, p.2.value)) := by
  have hlines := lines_document (q := q) closed hbare
    (Nat.lt_succ_of_le (length_le_length_document q closed pairs))
  have hsections : sectionsFrom .root [] (pairs.map fun p => Line.pair [p.1] p.2.value) =
      [⟨.root, pairs.map fun p => ([p.1], p.2.value)⟩] := by
    have hall := sectionsFrom_pairs .root [] (pairs.map fun p => ([p.1], p.2.value))
    rwa [List.map_map] at hall
  have hassign : Entries.assignAll [] (pairs.map fun p => ([p.1], p.2.value)) =
      some (pairs.map fun p => (p.1, p.2.value)) := by
    have hall := assignAll_single [] (pairs.map fun p => (p.1, p.2.value))
      (by rwa [List.nil_append, List.map_map])
    rwa [List.map_map] at hall
  rw [read, String.toList_ofList, dropMark_document hbare]
  show (lines _ _).bind _ = _
  rw [hlines]
  show Entries.ofSections (sectionsFrom _ _ _) = _
  rw [hsections]
  show (Entries.assignAll [] _).bind _ = _
  rw [hassign]
  rfl

end ScriptBackend.Toml

import ScriptBackend.Proofs.WrittenPieces

/-! # The first line of a module, read back

A module begins with its name and those of its dependencies, which it lists twice: in quotes as
names and without them as parameters.  A reader finds the names between the first brackets and the
parameters behind `function`, and cuts both at the commas.

For names without the characters that hold the line together (`IsName`), this gives back what the
line was made of (`bracketed_headerLine`, `parameters?_headerLine`, `parts_intercalate`).  The line
stands at level zero, where no spaces come before it and nothing is refused, and the text of a
writer only grows, so it is the first line of the module whatever follows
(`Session.firstLine_generate`).
-/
namespace ScriptBackend.Script

/-! ### Reading the line -/

/-- The first line of a text. -/
def firstLine (text : String) : List Char :=
  text.toList.takeWhile (· ≠ '\n')

/-- What stands between the first `[` and the first `]` of a line. -/
def bracketed (line : List Char) : List Char :=
  (line.take (line.idxOf ']')).drop (line.idxOf '[' + 1)

/-- What follows the first occurrence of `mark`, if there is one. -/
def after? (mark : List Char) : List Char → Option (List Char)
  | [] => none
  | c :: cs =>
    if mark.isPrefixOf (c :: cs) then some ((c :: cs).drop mark.length) else after? mark cs

/-- What stands between `function(` and the next `)`, if a line has that. -/
def parameters? (line : List Char) : Option (List Char) :=
  (after? "function(".toList line).map (·.takeWhile (· ≠ ')'))

/-- The parts of a text between the separators `, `. -/
def parts : List Char → List (List Char)
  | [] => [[]]
  | ',' :: ' ' :: cs => [] :: parts cs
  | c :: cs => (parts cs).modifyHead (c :: ·)

variable {cs rest : List Char} {ps : List (List Char)}

theorem parts_cons_of_ne {c : Char} (hc : c ≠ ',') :
    parts (c :: cs) = (parts cs).modifyHead (c :: ·) := by
  rw [parts]
  rintro rest rfl
  exact absurd rfl hc

theorem parts_of_not_mem (h : ',' ∉ cs) : parts cs = [cs] := by
  induction cs with
  | nil => rfl
  | cons c cs ih =>
    obtain ⟨hc, hcs⟩ := List.ne_and_not_mem_of_not_mem_cons h
    rw [parts_cons_of_ne hc.symm, ih hcs, List.modifyHead_cons]

theorem parts_append (h : ',' ∉ cs) : parts (cs ++ ',' :: ' ' :: rest) = cs :: parts rest := by
  induction cs with
  | nil => rfl
  | cons c cs ih =>
    obtain ⟨hc, hcs⟩ := List.ne_and_not_mem_of_not_mem_cons h
    rw [List.cons_append, parts_cons_of_ne hc.symm, ih hcs, List.modifyHead_cons]

/-- **Parts that are joined are found again**, if none has a comma in it. -/
theorem parts_intercalate (hne : ps ≠ []) (h : ∀ p ∈ ps, ',' ∉ p) :
    parts ([',', ' '].intercalate ps) = ps := by
  induction ps with
  | nil => exact absurd rfl hne
  | cons p ps ih =>
    obtain ⟨hp, hps⟩ := List.forall_mem_cons.mp h
    cases ps with
    | nil => rw [List.intercalate_singleton, parts_of_not_mem hp]
    | cons q ps =>
      rw [List.intercalate_cons_cons, List.append_assoc]
      exact (parts_append hp).trans (congrArg (p :: ·) (ih (List.cons_ne_nil q ps) hps))

theorem intercalate_eq_nil_iff (h : ∀ p ∈ ps, p ≠ []) :
    [',', ' '].intercalate ps = [] ↔ ps = [] := by
  cases ps with
  | nil => simp
  | cons p ps =>
    have hp : p ≠ [] := h p List.mem_cons_self
    cases ps with
    | nil => simp [hp]
    | cons q ps => simp [hp]

theorem not_mem_intercalate {x : Char} {sep : List Char} (hsep : x ∉ sep) (h : ∀ p ∈ ps, x ∉ p) :
    x ∉ sep.intercalate ps := by
  induction ps with
  | nil => simp
  | cons p ps ih =>
    obtain ⟨hp, hps⟩ := List.forall_mem_cons.mp h
    cases ps with
    | nil => rwa [List.intercalate_singleton]
    | cons q ps =>
      rw [List.intercalate_cons_cons]
      simp [hp, hsep, ih hps]

theorem takeWhile_append {x : Char} (h : x ∉ cs) : (cs ++ x :: rest).takeWhile (· ≠ x) = cs := by
  have hne : ∀ c ∈ cs, decide (c ≠ x) = true := by
    intro c hc
    exact decide_eq_true fun heq => h (heq ▸ hc)
  rw [List.takeWhile_append_of_pos hne]
  simp

theorem bracketed_append {a b : List Char} (ha : '[' ∉ a) (ha' : ']' ∉ a) (hb : ']' ∉ b) :
    bracketed (a ++ '[' :: (b ++ ']' :: rest)) = b := by
  have hfirst : (a ++ '[' :: (b ++ ']' :: rest)).idxOf '[' = a.length := by
    rw [List.idxOf_append_of_notMem ha, List.idxOf_cons_self, Nat.add_zero]
  have hlast : (a ++ '[' :: (b ++ ']' :: rest)).idxOf ']' = a.length + (b.length + 1) := by
    rw [List.idxOf_append_of_notMem ha', List.idxOf_cons_ne _ (by decide),
      List.idxOf_append_of_notMem hb, List.idxOf_cons_self, Nat.add_zero]
  rw [bracketed, hfirst, hlast]
  simp [List.take_append, List.drop_append]

theorem after?_self {mark : List Char} (h : mark ≠ []) :
    after? mark (mark ++ rest) = some rest := by
  obtain ⟨c, cs, rfl⟩ := List.exists_cons_of_ne_nil h
  have hprefix : (c :: cs).isPrefixOf (c :: (cs ++ rest)) = true :=
    List.isPrefixOf_iff_prefix.mpr (List.prefix_append (c :: cs) rest)
  rw [List.cons_append, after?, if_pos hprefix]
  simp

/-- A mark is found where its last character is seen for the first time. -/
theorem after?_append {front a : List Char} {x : Char} (hfront : x ∉ front) (ha : x ∉ a) :
    after? (front ++ [x]) (a ++ (front ++ [x] ++ rest)) = some rest := by
  induction a with
  | nil => exact after?_self (by simp)
  | cons c a ih =>
    have hnot : ¬ (front ++ [x]).isPrefixOf (c :: (a ++ (front ++ [x] ++ rest))) = true := by
      intro hprefix
      obtain ⟨more, hmore⟩ := List.isPrefixOf_iff_prefix.mp hprefix
      have hidx : (front ++ [x] ++ more).idxOf x = ((c :: a) ++ (front ++ [x] ++ rest)).idxOf x :=
        congrArg (·.idxOf x) hmore
      rw [List.idxOf_append_of_notMem ha, List.append_assoc, List.append_assoc,
        List.idxOf_append_of_notMem hfront, List.idxOf_append_of_notMem hfront] at hidx
      simp at hidx
    rw [List.cons_append, after?, if_neg hnot]
    exact ih (List.ne_and_not_mem_of_not_mem_cons ha).2

/-! ### Names that can be read back -/

/-- A name without the characters that hold the line together.  Quotes are not among them. -/
structure IsName (name : String) : Prop where
  nonempty : name ≠ ""
  plain : ∀ c ∈ [',', '[', ']', '(', ')', '\n'], c ∉ name.toList

/-- The names of dependencies, each in quotes. -/
def quotedNames (dependencies : List String) : List (List Char) :=
  dependencies.map fun d => ("'" ++ d ++ "'").toList

variable {moduleName : String} {dependencies : List String}

theorem not_mem_quotedNames {c : Char} (hc : c ∈ [',', '[', ']', '(', ')', '\n'])
    (h : ∀ d ∈ dependencies, IsName d) : ∀ p ∈ quotedNames dependencies, c ∉ p := by
  intro p hp
  obtain ⟨d, hd, rfl⟩ := List.mem_map.mp hp
  have hquote : c ≠ '\'' := by
    rintro rfl
    exact absurd hc (by decide)
  have hplain : c ∉ d.toList := (h d hd).plain c hc
  simp [hquote, hplain]

theorem not_mem_toList {c : Char} (hc : c ∈ [',', '[', ']', '(', ')', '\n'])
    (h : ∀ d ∈ dependencies, IsName d) : ∀ p ∈ dependencies.map String.toList, c ∉ p := by
  intro p hp
  obtain ⟨d, hd, rfl⟩ := List.mem_map.mp hp
  exact (h d hd).plain c hc

theorem after?_define (cs : List Char) :
    after? "function(".toList ("define(".toList ++ cs) = after? "function(".toList cs := rfl

/-- The characters of the line. -/
theorem toList_headerLine (moduleName : String) (dependencies : List String) :
    (headerLine moduleName dependencies).toList =
      "define('".toList ++ (moduleName.toList ++ ("', [".toList ++
        ([',', ' '].intercalate (quotedNames dependencies) ++ ("], function(".toList ++
          ([',', ' '].intercalate (dependencies.map String.toList) ++ ") \x7b".toList))))) := by
  have hquoted : (dependencies.map fun d => "'" ++ d ++ "'").map String.toList =
      quotedNames dependencies :=
    List.map_map
  unfold headerLine
  simp only [String.toList_append, String.toList_intercalate, hquoted, List.append_assoc]
  rfl

theorem bracketed_headerLine (hname : IsName moduleName) (h : ∀ d ∈ dependencies, IsName d) :
    bracketed (headerLine moduleName dependencies).toList =
      [',', ' '].intercalate (quotedNames dependencies) := by
  have hopen : '[' ∉ "define('".toList ++ (moduleName.toList ++ "', ".toList) := by
    simp [hname.plain]
  have hclose : ']' ∉ "define('".toList ++ (moduleName.toList ++ "', ".toList) := by
    simp [hname.plain]
  have hnames : ']' ∉ [',', ' '].intercalate (quotedNames dependencies) :=
    not_mem_intercalate (by decide) (not_mem_quotedNames (by decide) h)
  have hline : (headerLine moduleName dependencies).toList =
      "define('".toList ++ (moduleName.toList ++ "', ".toList) ++
        '[' :: ([',', ' '].intercalate (quotedNames dependencies) ++ ']' :: (", function(".toList ++
          ([',', ' '].intercalate (dependencies.map String.toList) ++ ") \x7b".toList))) := by
    rw [toList_headerLine, List.append_assoc, List.append_assoc]
    rfl
  rw [hline, bracketed_append hopen hclose hnames]

theorem parameters?_headerLine (hname : IsName moduleName) (h : ∀ d ∈ dependencies, IsName d) :
    parameters? (headerLine moduleName dependencies).toList =
      some ([',', ' '].intercalate (dependencies.map String.toList)) := by
  have hnames : '(' ∉ [',', ' '].intercalate (quotedNames dependencies) :=
    not_mem_intercalate (by decide) (not_mem_quotedNames (by decide) h)
  have hbefore : '(' ∉ '\'' :: (moduleName.toList ++ ("', [".toList ++
      ([',', ' '].intercalate (quotedNames dependencies) ++ "], ".toList))) := by
    simp [hname.plain, hnames]
  have hparameters : ')' ∉ [',', ' '].intercalate (dependencies.map String.toList) :=
    not_mem_intercalate (by decide) (not_mem_toList (by decide) h)
  have hline : (headerLine moduleName dependencies).toList =
      "define(".toList ++ ('\'' :: (moduleName.toList ++ ("', [".toList ++
        ([',', ' '].intercalate (quotedNames dependencies) ++ "], ".toList))) ++
          ("function".toList ++ ['('] ++
            ([',', ' '].intercalate (dependencies.map String.toList) ++ [')', ' ', '\x7b']))) := by
    rw [toList_headerLine, List.cons_append, List.append_assoc, List.append_assoc,
      List.append_assoc]
    rfl
  have hafter : after? "function(".toList (headerLine moduleName dependencies).toList =
      some ([',', ' '].intercalate (dependencies.map String.toList) ++ [')', ' ', '\x7b']) := by
    have hmark : '(' ∉ "function".toList := by decide
    rw [hline, after?_define]
    exact after?_append hmark hbefore
  rw [parameters?, hafter, Option.map_some, takeWhile_append hparameters]

theorem not_mem_headerLine (hname : IsName moduleName) (h : ∀ d ∈ dependencies, IsName d) :
    '\n' ∉ (headerLine moduleName dependencies).toList := by
  have hnames : '\n' ∉ [',', ' '].intercalate (quotedNames dependencies) :=
    not_mem_intercalate (by decide) (not_mem_quotedNames (by decide) h)
  have hparameters : '\n' ∉ [',', ' '].intercalate (dependencies.map String.toList) :=
    not_mem_intercalate (by decide) (not_mem_toList (by decide) h)
  rw [toList_headerLine]
  simp [hname.plain, hnames, hparameters]

/-! ### The line in the text of a module -/

namespace Writer

/-- Whatever is done with a writer, its text only grows. -/
theorem output_prefix_put (w : Writer) (c : Char) :
    w.output.toList <+: (w.put c).output.toList := by
  unfold put
  split
  · simp
  · split
    · simp
    · simp

theorem output_prefix_feed (w : Writer) (cs : List Char) :
    w.output.toList <+: (w.feed cs).1.output.toList := by
  induction cs generalizing w with
  | nil => exact List.prefix_refl _
  | cons c cs ih =>
    rw [feed]
    cases w.refusal? c with
    | some refusal => exact List.prefix_refl _
    | none => exact (w.output_prefix_put c).trans (ih (w.put c))

theorem output_prefix_perform (w : Writer) (op : Op) :
    w.output.toList <+: (w.perform op).1.output.toList := by
  cases htext : op.text? with
  | some text =>
    rw [perform_of_text htext]
    exact w.output_prefix_feed text.toList
  | none =>
    have hsame : (w.perform op).1.output = w.output := by rw [(fst_perform_of_no_text htext).1]
    exact ⟨[], by rw [hsame, List.append_nil]⟩

theorem output_prefix_run (w : Writer) (ops : List Op) :
    w.output.toList <+: (w.run ops).1.output.toList := by
  induction ops generalizing w with
  | nil => exact List.prefix_refl _
  | cons op ops ih =>
    have hop := w.output_prefix_perform op
    rw [run]
    rcases hperform : w.perform op with ⟨next, _ | refusal⟩
    · rw [hperform] at hop
      exact hop.trans (ih next)
    · rwa [hperform] at hop

/-- At level zero a line begins without spaces, so a new writer takes all of it. -/
theorem perform_write_fresh (width : Nat) {line : String} (hne : line.toList ≠ [])
    (hline : '\n' ∉ line.toList) :
    ({ width } : Writer).perform (.write line) =
      ({ width, output := line, atLineStart := false }, none) := by
  have hspaces : ({ width } : Writer).indentation = 0 := Nat.zero_mul width
  have hoverflow : ({ width } : Writer).overflow? = none := by
    simp [overflow?, hspaces]
  rw [perform, feed_eq_fragment hline, fragment, if_neg hne, if_pos rfl, hoverflow, hspaces]
  simp

end Writer

namespace Session

variable {σ : Type} {e : Emitter σ}

theorem fst_generate (s : Session σ) (options : Options) (symbols : SymbolSet) :
    (s.generate e options symbols).1 = (s.follow e (outline options symbols)).1 := by
  rw [generate]
  rcases s.follow e (outline options symbols) with ⟨next, _ | refusal⟩
  · dsimp only
    split
    · rfl
    · rfl
  · rfl

theorem output_prefix_follow (s : Session σ) (steps : List Step) :
    s.writer.output.toList <+: (s.follow e steps).1.writer.output.toList := by
  have hrun : (s.follow e steps).1.writer =
      (s.writer.run ((s.record e steps).flatMap Prod.snd)).1 :=
    congrArg Prod.fst (follow_eq_run s steps)
  rw [hrun]
  exact s.writer.output_prefix_run _

/-- **A new session begins with the line of the module**, however it ends. -/
theorem firstLine_generate (options : Options) (state : σ) {symbols : SymbolSet}
    (hname : IsName symbols.scriptName) (h : ∀ d ∈ symbols.dependencies, IsName d) :
    firstLine ((start options state).generate e options symbols).1.writer.output =
      (headerLine symbols.scriptName symbols.dependencies).toList := by
  obtain ⟨steps, hsteps⟩ : ∃ steps, outline options symbols =
      .op (.write (headerLine symbols.scriptName symbols.dependencies)) :: .op .newLine :: steps :=
    ⟨_, rfl⟩
  have hne : (headerLine symbols.scriptName symbols.dependencies).toList ≠ [] := by
    rw [toList_headerLine]
    simp
  have hline := not_mem_headerLine hname h
  generalize headerLine symbols.scriptName symbols.dependencies = line at hsteps hne hline ⊢
  let next : Session σ :=
    { writer := { width := options.indentWidth, output := line.push '\n' }, emitterState := state }
  have hfollow : (start options state).follow e (outline options symbols) =
      next.follow e steps := by
    rw [hsteps, follow, step, start, Writer.perform_write_fresh _ hne hline]
    rfl
  obtain ⟨rest, hrest⟩ := next.output_prefix_follow (e := e) steps
  have hnext : next.writer.output.toList = line.toList ++ ['\n'] := String.toList_push '\n'
  rw [fst_generate, hfollow, firstLine, ← hrest, hnext, List.append_assoc]
  exact takeWhile_append hline

end Session

/-! ### What the line tells -/

theorem quotedNames_eq_nil_iff : quotedNames dependencies = [] ↔ dependencies = [] :=
  List.map_eq_nil_iff

theorem quoted_ne_nil : ∀ p ∈ quotedNames dependencies, p ≠ [] := by
  intro p hp
  obtain ⟨d, -, rfl⟩ := List.mem_map.mp hp
  simp

theorem toList_ne_nil (h : ∀ d ∈ dependencies, IsName d) :
    ∀ p ∈ dependencies.map String.toList, p ≠ [] := by
  intro p hp
  obtain ⟨d, hd, rfl⟩ := List.mem_map.mp hp
  exact fun hnil => (h d hd).nonempty (String.toList_eq_nil_iff.mp hnil)

/-- Texts that are joined are the same if the whole is. -/
theorem eq_of_intercalate_eq {ps qs : List (List Char)}
    (hps : ∀ p ∈ ps, p ≠ [] ∧ ',' ∉ p) (hqs : ∀ q ∈ qs, q ≠ [] ∧ ',' ∉ q)
    (h : [',', ' '].intercalate ps = [',', ' '].intercalate qs) : ps = qs := by
  have hnil : ps = [] ↔ qs = [] := by
    rw [← intercalate_eq_nil_iff fun p hp => (hps p hp).1, h,
      intercalate_eq_nil_iff fun q hq => (hqs q hq).1]
  by_cases hne : ps = []
  · rw [hne, hnil.mp hne]
  · rw [← parts_intercalate hne fun p hp => (hps p hp).2, h,
      parts_intercalate (mt hnil.mpr hne) fun q hq => (hqs q hq).2]

/-- The line tells the module and its dependencies. -/
theorem headerLine_injective {otherName : String} {others : List String}
    (hname : IsName moduleName) (h : ∀ d ∈ dependencies, IsName d)
    (hotherName : IsName otherName) (hothers : ∀ d ∈ others, IsName d)
    (heq : (headerLine moduleName dependencies).toList = (headerLine otherName others).toList) :
    moduleName = otherName ∧ dependencies = others := by
  have hparameters := congrArg parameters? heq
  rw [parameters?_headerLine hname h, parameters?_headerLine hotherName hothers,
    Option.some.injEq] at hparameters
  have hlists : dependencies.map String.toList = others.map String.toList :=
    eq_of_intercalate_eq
      (fun p hp => ⟨toList_ne_nil h p hp, not_mem_toList (by decide) h p hp⟩)
      (fun p hp => ⟨toList_ne_nil hothers p hp, not_mem_toList (by decide) hothers p hp⟩)
      hparameters
  obtain rfl : dependencies = others :=
    List.map_inj_right (fun _ _ => String.toList_inj.mp) |>.mp hlists
  rw [toList_headerLine, toList_headerLine] at heq
  exact ⟨String.toList_inj.mp (List.append_cancel_right (List.append_cancel_left heq)), rfl⟩

/-- **The first line of a module can be read back.**  In brackets it has the names of the
dependencies in quotes, and behind `function` the same names without them, in the same places;
nothing stands there if there are no dependencies, and otherwise the names are between the commas.
So programs with other module names or other dependencies have other first lines, whatever they
declare and whatever is written for it. -/
theorem generate_header_reads_back {σ : Type} (e : Emitter σ) (options : Options) (state : σ)
    (symbols : SymbolSet) (named : IsName symbols.scriptName)
    (depends : ∀ d ∈ symbols.dependencies, IsName d) :
    let line := firstLine ((Session.start options state).generate e options symbols).1.writer.output
    (bracketed line = [] ↔ symbols.dependencies = []) ∧
      (symbols.dependencies ≠ [] → parts (bracketed line) = quotedNames symbols.dependencies) ∧
      (∃ parameters, parameters? line = some parameters ∧
        (parameters = [] ↔ symbols.dependencies = []) ∧
        (symbols.dependencies ≠ [] →
          parts parameters = symbols.dependencies.map String.toList)) ∧
      ∀ {τ : Type} (e' : Emitter τ) (options' : Options) (state' : τ) (other : SymbolSet),
        IsName other.scriptName → (∀ d ∈ other.dependencies, IsName d) →
        firstLine ((Session.start options' state').generate e' options' other).1.writer.output =
          line →
        other.scriptName = symbols.scriptName ∧ other.dependencies = symbols.dependencies := by
  intro line
  have hline : line = (headerLine symbols.scriptName symbols.dependencies).toList :=
    Session.firstLine_generate options state named depends
  have hbracketed : bracketed line = [',', ' '].intercalate (quotedNames symbols.dependencies) := by
    rw [hline, bracketed_headerLine named depends]
  have hparameters : parameters? line =
      some ([',', ' '].intercalate (symbols.dependencies.map String.toList)) := by
    rw [hline, parameters?_headerLine named depends]
  refine ⟨?_, fun hne => ?_, ⟨_, hparameters, ?_, fun hne => ?_⟩, ?_⟩
  · rw [hbracketed, intercalate_eq_nil_iff quoted_ne_nil, quotedNames_eq_nil_iff]
  · rw [hbracketed]
    exact parts_intercalate (mt quotedNames_eq_nil_iff.mp hne)
      (not_mem_quotedNames (by decide) depends)
  · rw [intercalate_eq_nil_iff (toList_ne_nil depends), List.map_eq_nil_iff]
  · exact parts_intercalate (mt List.map_eq_nil_iff.mp hne) (not_mem_toList (by decide) depends)
  · intro τ e' options' state' other hname hothers hsame
    rw [Session.firstLine_generate options' state' hname hothers, hline] at hsame
    exact headerLine_injective hname hothers named depends hsame

/-- A dependency may be called `function`, and the order of the dependencies shows. -/
theorem generate_header_reads_back_function :
    let symbols : SymbolSet := { scriptName := "widgets", dependencies := ["function", "ss"] }
    let other : SymbolSet := { scriptName := "widgets", dependencies := ["ss", "function"] }
    let e : Emitter Unit := .ofCall fun _ => []
    let line := firstLine ((Session.start {} ()).generate e {} symbols).1.writer.output
    (IsName symbols.scriptName ∧ ∀ d ∈ symbols.dependencies, IsName d) ∧
      parts (bracketed line) = ["'function'".toList, "'ss'".toList] ∧
      (∃ parameters, parameters? line = some parameters ∧
        parts parameters = ["function".toList, "ss".toList]) ∧
      firstLine ((Session.start {} ()).generate e {} other).1.writer.output ≠ line := by
  intro symbols other e line
  have hwidgets : IsName "widgets" := ⟨by decide, by simp⟩
  have hfunction : IsName "function" := ⟨by decide, by simp⟩
  have hss : IsName "ss" := ⟨by decide, by simp⟩
  have hsymbols : ∀ d ∈ symbols.dependencies, IsName d := by simp [symbols, hfunction, hss]
  have hother : ∀ d ∈ other.dependencies, IsName d := by simp [other, hfunction, hss]
  obtain ⟨-, hnames, ⟨parameters, hparameters, -, hparts⟩, hdiffers⟩ :=
    generate_header_reads_back e {} () symbols hwidgets hsymbols
  refine ⟨⟨hwidgets, hsymbols⟩, hnames (by decide), ⟨parameters, hparameters, hparts (by decide)⟩,
    fun hsame => ?_⟩
  exact absurd (hdiffers e {} () other hwidgets hother hsame).2 (by decide)

end ScriptBackend.Script

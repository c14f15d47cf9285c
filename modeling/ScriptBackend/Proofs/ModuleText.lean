import ScriptBackend.Proofs.Indentation
import ScriptBackend.Proofs.SessionRecord

/-! # The text of a module

The text of a module, written out as a whole (`moduleText`): the frame, and in it what the
emitter wrote in its calls, each block at its depth.  For an emitter that only writes, this
is what a generation gives, unless the text is longer than any text can be.
-/
namespace ScriptBackend.Script

/-- What the emitter wrote for one piece of the types, in the order of the calls. -/
def written (piece : Piece) (said : List (Call × String)) : String :=
  String.join ((said.filter (·.1.piece = piece)).map (·.2))

/-- The entry of a registered type. -/
def entryText (s : Call × String) : String :=
  s.1.type.generatedName ++ ": " ++ s.2

/-- The entries of the registered types of one visibility, in the order of the calls. -/
def entries (isPublic : Bool) (said : List (Call × String)) : List String :=
  (said.filter fun s => s.1.piece = .registration ∧ s.1.type.isPublic = isPublic).map entryText

/-- The list of the registered types of one visibility: nothing but `null` if there are no
types, even if none of those that there are is registered. -/
def bucketText (width : Nat) (types : List TypeSymbol) (entries : List String) : String :=
  if types.isEmpty then " null"
  else
    "\n" ++ indentText (2 * width) "\x7b\n" ++ indentText (3 * width) (",\n".intercalate entries) ++
      "\n" ++ indentText (2 * width) "\x7d"

/-- The text of a module, given the calls and what the emitter wrote in them. -/
def moduleText (options : Options) (symbols : SymbolSet) (said : List (Call × String)) : String :=
  let width := options.indentWidth
  let selection := symbols.selection options.includeTests
  let name := symbols.scriptName
  "define('" ++ name ++ "', [" ++
      ", ".intercalate (symbols.dependencies.map fun d => "'" ++ d ++ "'") ++ "], function(" ++
      ", ".intercalate symbols.dependencies ++ ") \x7b\n" ++
    indentText width
      ("'use strict';\n\n" ++ written .body said ++
        "var $" ++ name ++ " = ss.module('" ++ name ++ "',") ++
    bucketText width selection.internalTypes (entries false said) ++ "," ++
    bucketText width selection.publicTypes (entries true said) ++ ");\n\n" ++
    indentText width
      (written .constructor said ++ written .testScaffold said ++ "\nreturn $" ++ name ++ ";\n") ++
    "\x7d);\n"

/-- The calls of a module, in order. -/
def moduleCalls (options : Options) (symbols : SymbolSet) : List Call :=
  let selection := symbols.selection options.includeTests
  let registered := (selection.internalTypes ++ selection.publicTypes).filter
    (!·.kind.hasGlobalMethods)
  selection.types.map (⟨.body, ·⟩) ++ registered.map (⟨.registration, ·⟩) ++
    (selection.types.filter (·.kind.isClass)).map (⟨.constructor, ·⟩) ++
    if options.includeTests then (selection.types.filter (·.isTestClass)).map (⟨.testScaffold, ·⟩)
    else []

section Parts

variable {piece other : Piece} {types : List TypeSymbol} {said : List (Call × String)}

theorem written_append (piece : Piece) (said said' : List (Call × String)) :
    written piece (said ++ said') = written piece said ++ written piece said' := by
  simp [written]

theorem entries_append (isPublic : Bool) (said said' : List (Call × String)) :
    entries isPublic (said ++ said') = entries isPublic said ++ entries isPublic said' := by
  simp [entries]

theorem piece_of_mem (h : said.map Prod.fst = types.map (⟨piece, ·⟩)) {s : Call × String}
    (hs : s ∈ said) : s.1.piece = piece ∧ s.1.type ∈ types := by
  have hcall : s.1 ∈ types.map (Call.mk piece) := h ▸ List.mem_map_of_mem hs
  obtain ⟨t, ht, heq⟩ := List.mem_map.mp hcall
  rw [← heq]
  exact ⟨rfl, ht⟩

/-- Calls for one piece have no part in another. -/
theorem written_of_calls (h : said.map Prod.fst = types.map (⟨other, ·⟩)) :
    written piece said = if other = piece then String.join (said.map Prod.snd) else "" := by
  unfold written
  split
  case isTrue heq =>
    rw [List.filter_eq_self.mpr fun s hs => by simp [(piece_of_mem h hs).1, heq]]
  case isFalse hne =>
    rw [List.filter_eq_nil_iff.mpr fun s hs => by simp [(piece_of_mem h hs).1, hne]]
    rfl

theorem entries_of_calls {isPublic : Bool} (h : said.map Prod.fst = types.map (⟨piece, ·⟩))
    (hpiece : piece ≠ .registration) : entries isPublic said = [] := by
  unfold entries
  rw [List.filter_eq_nil_iff.mpr fun s hs => by simp [(piece_of_mem h hs).1, hpiece]]
  rfl

/-- Types of one visibility have no part in the other. -/
theorem entries_of_registration {isPublic visible : Bool}
    (h : said.map Prod.fst = types.map (⟨.registration, ·⟩))
    (hvisible : ∀ t ∈ types, t.isPublic = visible) :
    entries isPublic said = if visible = isPublic then said.map entryText else [] := by
  unfold entries
  split
  case isTrue heq =>
    rw [List.filter_eq_self.mpr fun s hs => ?_]
    obtain ⟨hpiece, htype⟩ := piece_of_mem h hs
    simp [hpiece, hvisible _ htype, heq]
  case isFalse hne =>
    rw [List.filter_eq_nil_iff.mpr fun s hs => ?_]
    · rfl
    · obtain ⟨-, htype⟩ := piece_of_mem h hs
      simp [hvisible _ htype, hne]

end Parts

/-! ### The blocks of a module -/

section Blocks

variable {r : List (Step × List Writer.Op)} {types : List TypeSymbol} {out : String} {width : Nat}

theorem prints_calls {piece : Piece} (h : Records r (calls piece types)) :
    Writer.Prints (r.flatMap Prod.snd) (String.join ((r.filterMap said?).map Prod.snd)) := by
  induction types generalizing r with
  | nil =>
    obtain rfl := h.eq_nil
    exact .nil
  | cons t types ih =>
    obtain ⟨texts, rest, rfl, htexts, hrest⟩ := h.uncons
    have hsaid : ((Step.call ⟨piece, t⟩, texts) :: rest).filterMap said? =
        (⟨piece, t⟩, Writer.plainText texts) :: rest.filterMap said? := rfl
    rw [List.flatMap_cons, hsaid, List.map_cons, String.join_cons]
    exact Writer.Prints.append ⟨htexts, rfl⟩ (ih hrest)

theorem prints_entry {t : TypeSymbol} (h : Records r (registrationEntry t)) :
    ∃ s, r.filterMap said? = [s] ∧ Writer.Prints (r.flatMap Prod.snd) (entryText s) := by
  obtain ⟨name, rest, rfl, hname, hrest⟩ := h.uncons
  obtain ⟨thunk, rest, rfl, hthunk, hrest⟩ := hrest.uncons
  obtain rfl := hrest.eq_nil
  obtain rfl : name = [.write (t.generatedName ++ ": ")] := hname
  have hprints : Writer.Prints (thunk ++ []) (Writer.plainText thunk) := by
    rw [List.append_nil]
    exact ⟨hthunk, rfl⟩
  exact ⟨(⟨.registration, t⟩, Writer.plainText thunk), rfl,
    (Writer.Prints.single rfl).append hprints⟩

/-- The steps of the entries of a list. -/
def entrySteps (types : List TypeSymbol) : List Step :=
  ((types.map registrationEntry).intersperse [.op (.line ",")]).flatten

theorem entrySteps_cons_cons (t next : TypeSymbol) (types : List TypeSymbol) :
    entrySteps (t :: next :: types) =
      registrationEntry t ++ ([.op (.line ",")] ++ entrySteps (next :: types)) := by
  rw [entrySteps, List.map_cons, List.map_cons, List.intersperse_cons_cons, List.flatten_cons,
    List.flatten_cons, ← List.map_cons, entrySteps]

/-- Behind the first entry, each comes with the comma in front of it. -/
theorem entrySteps_cons (t : TypeSymbol) (types : List TypeSymbol) :
    entrySteps (t :: types) =
      registrationEntry t ++ types.flatMap ([.op (.line ",")] ++ registrationEntry ·) := by
  induction types generalizing t with
  | nil => rfl
  | cons next types ih =>
    rw [entrySteps_cons_cons, ih, List.flatMap_cons, List.append_assoc]

theorem registrationEntries_eq (first : Bool) (types : List TypeSymbol) :
    let registered := types.filter (!·.kind.hasGlobalMethods)
    registrationEntries first types =
      if first then entrySteps registered
      else registered.flatMap ([.op (.line ",")] ++ registrationEntry ·) := by
  induction types generalizing first with
  | nil => cases first <;> rfl
  | cons t types ih =>
    intro registered
    rw [registrationEntries]
    split
    case isTrue hglobal =>
      -- no entry, so the next one is the first if this would have been
      have hskipped : registered = types.filter (!·.kind.hasGlobalMethods) :=
        List.filter_cons_of_neg (by simp [hglobal])
      rw [ih first, hskipped]
    case isFalse hlocal =>
      have hlisted : registered = t :: types.filter (!·.kind.hasGlobalMethods) :=
        List.filter_cons_of_pos (by simp [hlocal])
      rw [ih false, hlisted]
      cases first with
      | true => exact (entrySteps_cons t _).symm
      | false => rfl

/-- **A comma stands between two entries and nowhere else**, whichever types have none. -/
theorem registrationEntries_true (types : List TypeSymbol) :
    registrationEntries true types = entrySteps (types.filter (!·.kind.hasGlobalMethods)) :=
  registrationEntries_eq true types

theorem calls_entrySteps (types : List TypeSymbol) :
    (entrySteps types).filterMap Step.call? = types.map (⟨.registration, ·⟩) := by
  induction types with
  | nil => rfl
  | cons t types ih =>
    cases types with
    | nil => rfl
    | cons next types =>
      rw [entrySteps_cons_cons, List.filterMap_append, List.filterMap_append, ih]
      rfl

theorem prints_entries (h : Records r (entrySteps types)) :
    Writer.Prints (r.flatMap Prod.snd)
      (",\n".intercalate ((r.filterMap said?).map entryText)) := by
  induction types generalizing r with
  | nil =>
    obtain rfl := h.eq_nil
    exact .nil
  | cons t types ih =>
    cases types with
    | nil =>
      obtain ⟨s, hsaid, hprints⟩ := prints_entry (r := r) h
      rw [hsaid]
      exact hprints
    | cons next types =>
      rw [entrySteps_cons_cons] at h
      obtain ⟨entry, r, rfl, hentry, hr⟩ := h.split
      obtain ⟨comma, rest, rfl, hcomma, hrest⟩ := hr.split
      obtain ⟨s, hsaid, hprints⟩ := prints_entry hentry
      obtain ⟨hops, hsilent⟩ := hcomma.frame [.line ","]
      -- there is a next entry, so the comma stands between two
      have hnext : (rest.filterMap said?).map entryText ≠ [] := by
        intro hnil
        have hcalls := hrest.calls.trans (calls_entrySteps (next :: types))
        rw [List.map_eq_nil_iff.mp hnil] at hcalls
        cases hcalls
      rw [List.flatMap_append, List.flatMap_append, List.filterMap_append, List.filterMap_append,
        hsaid, hsilent, hops, List.nil_append, List.map_append, List.map_singleton,
        String.intercalate_append_of_ne_nil (List.cons_ne_nil _ _) hnext,
        String.intercalate_singleton, String.append_assoc]
      exact hprints.append ((Writer.Prints.single rfl).append (ih hrest))

/-- A block of lines, from the beginning of a line to its last character. -/
theorem write_block {level : Nat} (text : String) {last : String} {c : Char}
    (hc : last.toList.getLast? = some c) :
    Writer.write ⟨out, level, width, true⟩ (text ++ last) =
      ⟨out ++ indentText (level * width) (text ++ last), level, width, decide (c = '\n')⟩ := by
  have hlast : (text ++ last).toList.getLast? = some c := by
    rw [String.toList_append, List.getLast?_append, hc]
    rfl
  exact Writer.write_of_atLineStart rfl hlast

/-- A text within a line. -/
theorem leads_inLine {level : Nat} (text : String) {c : Char}
    (hc : text.toList.getLast? = some c) (hline : '\n' ∉ text.toList) (out : String) (width : Nat) :
    Writer.Leads ⟨out, level, width, false⟩ [.write text] ⟨out ++ text, level, width, false⟩ := by
  have hwrite : Writer.write ⟨out, level, width, false⟩ text = ⟨out ++ text, level, width, false⟩ :=
    Writer.write_of_not_atLineStart rfl hc hline
  rw [← hwrite]
  exact (Writer.Prints.single rfl).leads _

theorem leads_openBucket (out : String) (width : Nat) :
    Writer.Leads ⟨out, 1, width, false⟩ [.newLine, .indent, .line "\x7b", .indent]
      ⟨out ++ "\n" ++ indentText (2 * width) "\x7b\n", 3, width, true⟩ := by
  refine ⟨?_, by simp [Writer.Grounded]⟩
  have hbrace : Writer.write ⟨out ++ "\n", 2, width, true⟩ ("\x7b" ++ "\n") =
      ⟨out ++ "\n" ++ indentText (2 * width) "\x7b\n", 2, width, true⟩ :=
    write_block "\x7b" (c := '\n') rfl
  simp only [Writer.applyAll_cons, Writer.applyAll_nil, Writer.apply, Writer.write_newLine,
    Writer.indent, hbrace]

theorem leads_closeBucket (out : String) (width : Nat) (atLineStart : Bool) :
    Writer.Leads ⟨out, 3, width, atLineStart⟩ [.outdent, .newLine, .write "\x7d", .outdent]
      ⟨out ++ "\n" ++ indentText (2 * width) "\x7d", 1, width, false⟩ := by
  refine ⟨?_, by simp [Writer.Grounded, Writer.Op.levelAfter]⟩
  have hbrace : Writer.write ⟨out ++ "\n", 2, width, true⟩ "\x7d" =
      ⟨out ++ "\n" ++ indentText (2 * width) "\x7d", 2, width, false⟩ :=
    Writer.write_of_atLineStart rfl (c := '\x7d') rfl
  simp only [Writer.applyAll_cons, Writer.applyAll_nil, Writer.apply, Writer.write_newLine, hbrace]

/-- **A list of registered types goes on the line where it begins.** -/
theorem leads_bucket (h : Records r (registrationBucket types)) :
    Writer.Leads ⟨out, 1, width, false⟩ (r.flatMap Prod.snd)
      ⟨out ++ bucketText width types ((r.filterMap said?).map entryText), 1, width, false⟩ := by
  unfold registrationBucket at h
  unfold bucketText
  split at h
  case isTrue hempty =>
    obtain ⟨hops, -⟩ := h.frame [.write " null"]
    rw [hops, if_pos hempty]
    exact leads_inLine " null" (c := 'l') rfl (by decide) out width
  case isFalse hsome =>
    obtain ⟨front, close, rfl, hfront, hclose⟩ := h.split
    obtain ⟨opening, listed, rfl, hopening, hlisted⟩ := hfront.split
    rw [registrationEntries_true] at hlisted
    obtain ⟨hopenOps, hopenSaid⟩ :=
      hopening.frame [.newLine, .indent, .line "\x7b", .indent]
    obtain ⟨hcloseOps, hcloseSaid⟩ :=
      hclose.frame [.outdent, .newLine, .write "\x7d", .outdent]
    have hlines := (prints_entries hlisted).leads
      ⟨out ++ "\n" ++ indentText (2 * width) "\x7b\n", 3, width, true⟩
    rw [Writer.write_eq, Writer.output_write_of_atLineStart rfl] at hlines
    rw [if_neg hsome]
    simp only [List.flatMap_append, List.filterMap_append, hopenOps, hcloseOps, hopenSaid,
      hcloseSaid, List.nil_append, List.append_nil, ← String.append_assoc]
    exact ((leads_openBucket out width).append hlines).append (leads_closeBucket _ width _)

theorem calls_calls (piece : Piece) (types : List TypeSymbol) :
    (calls piece types).filterMap Step.call? = types.map (⟨piece, ·⟩) := by
  rw [calls, List.filterMap_map]
  exact congrFun (List.filterMap_eq_map (f := Call.mk piece)) types

theorem calls_registrationBucket (types : List TypeSymbol) :
    (registrationBucket types).filterMap Step.call? =
      (types.filter (!·.kind.hasGlobalMethods)).map (⟨.registration, ·⟩) := by
  unfold registrationBucket
  split
  case isTrue hempty =>
    rw [List.isEmpty_iff.mp hempty]
    rfl
  case isFalse =>
    rw [List.filterMap_append, List.filterMap_append, registrationEntries_true, calls_entrySteps]
    simp [List.filterMap_cons, Step.call?]

/-- The steps from the first line in the module up to the lists of registered types. -/
def headSteps (moduleName : String) (types : List TypeSymbol) : List Step :=
  [Writer.Op.line "'use strict';", .newLine].map .op ++ calls .body types ++
    [Writer.Op.write ("var $" ++ moduleName ++ " = ss.module('" ++ moduleName ++ "',")].map .op

/-- The steps from there to the last line in the module. -/
def tailSteps (moduleName : String) (classes tests : List TypeSymbol) : List Step :=
  calls .constructor classes ++ calls .testScaffold tests ++
    [Writer.Op.newLine, .line ("return $" ++ moduleName ++ ";")].map .op

theorem outline_eq (options : Options) (symbols : SymbolSet) :
    let selection := symbols.selection options.includeTests
    outline options symbols =
      [Writer.Op.write (headerLine symbols.scriptName symbols.dependencies), .newLine,
          .indent].map .op ++
        headSteps symbols.scriptName selection.types ++
        registrationBucket selection.internalTypes ++ [Writer.Op.write ","].map .op ++
        registrationBucket selection.publicTypes ++ [Writer.Op.line ");", .newLine].map .op ++
        tailSteps symbols.scriptName (selection.types.filter (·.kind.isClass))
          (if options.includeTests then selection.types.filter (·.isTestClass) else []) ++
        [Writer.Op.outdent, .line "\x7d);"].map .op := by
  have htests : ∀ tests : List TypeSymbol,
      (if options.includeTests then calls .testScaffold tests else []) =
        calls .testScaffold (if options.includeTests then tests else []) := by
    intro tests
    cases options.includeTests with
    | true => rfl
    | false => rfl
  simp [outline, opening, registration, closing, headSteps, tailSteps, htests]

theorem leads_head {moduleName : String} (h : Records r (headSteps moduleName types)) :
    (r.filterMap said?).map Prod.fst = types.map (⟨.body, ·⟩) ∧
      ∀ out width, Writer.Leads ⟨out, 1, width, true⟩ (r.flatMap Prod.snd)
        ⟨out ++ indentText width
            ("'use strict';\n\n" ++ String.join ((r.filterMap said?).map Prod.snd) ++
              "var $" ++ moduleName ++ " = ss.module('" ++ moduleName ++ "',"),
          1, width, false⟩ := by
  obtain ⟨front, last, rfl, hfront, hlast⟩ := h.split
  obtain ⟨first, bodies, rfl, hfirst, hbodies⟩ := hfront.split
  obtain ⟨hfirstOps, hfirstSaid⟩ := hfirst.frame
  obtain ⟨hlastOps, hlastSaid⟩ := hlast.frame
  simp only [List.flatMap_append, List.filterMap_append, hfirstOps, hlastOps, hfirstSaid,
    hlastSaid, List.nil_append, List.append_nil]
  refine ⟨hbodies.calls.trans (calls_calls _ _), fun out width => ?_⟩
  have hstrict : Writer.Prints [.line "'use strict';", .newLine] "'use strict';\n\n" :=
    ⟨by decide, rfl⟩
  have hvar : Writer.Prints
      [.write ("var $" ++ moduleName ++ " = ss.module('" ++ moduleName ++ "',")]
      ("var $" ++ moduleName ++ " = ss.module('" ++ moduleName ++ "',") := .single rfl
  have hleads := ((hstrict.append (prints_calls hbodies)).append hvar).leads ⟨out, 1, width, true⟩
  simp only [← String.append_assoc] at hleads
  rw [write_block _ (c := ',') rfl, Nat.one_mul] at hleads
  exact hleads

theorem leads_tail {moduleName : String} {classes tests : List TypeSymbol}
    (h : Records r (tailSteps moduleName classes tests)) :
    ∃ constructors scaffolds, r.filterMap said? = constructors ++ scaffolds ∧
      constructors.map Prod.fst = classes.map (⟨.constructor, ·⟩) ∧
      scaffolds.map Prod.fst = tests.map (⟨.testScaffold, ·⟩) ∧
      ∀ out width, Writer.Leads ⟨out, 1, width, true⟩ (r.flatMap Prod.snd)
        ⟨out ++ indentText width
            (String.join (constructors.map Prod.snd) ++ String.join (scaffolds.map Prod.snd) ++
              "\nreturn $" ++ moduleName ++ ";\n"),
          1, width, true⟩ := by
  obtain ⟨front, last, rfl, hfront, hlast⟩ := h.split
  obtain ⟨constructors, scaffolds, rfl, hconstructors, hscaffolds⟩ := hfront.split
  obtain ⟨hlastOps, hlastSaid⟩ := hlast.frame
  refine ⟨constructors.filterMap said?, scaffolds.filterMap said?, ?_,
    hconstructors.calls.trans (calls_calls _ _), hscaffolds.calls.trans (calls_calls _ _), ?_⟩
  · rw [List.filterMap_append, List.filterMap_append, hlastSaid, List.append_nil]
  · intro out width
    have hreturn : Writer.Prints [.newLine, .line ("return $" ++ moduleName ++ ";")]
        ("\nreturn $" ++ moduleName ++ ";\n") := by
      refine ⟨by simp [Writer.Op.text?], ?_⟩
      simp [Writer.plainText, Writer.Op.text?, List.filterMap_cons, ← String.toList_inj]
    have hleads := (((prints_calls hconstructors).append (prints_calls hscaffolds)).append
      hreturn).leads ⟨out, 1, width, true⟩
    simp only [← String.append_assoc] at hleads
    rw [write_block _ (c := '\n') rfl, Nat.one_mul] at hleads
    rw [List.flatMap_append, List.flatMap_append, hlastOps]
    exact hleads

theorem leads_header (line : String) (width : Nat) :
    Writer.Leads ⟨"", 0, width, true⟩ [.write line, .newLine, .indent]
      ⟨line ++ "\n", 1, width, true⟩ := by
  have hwrite : Writer.write ⟨"", 0, width, true⟩ (line ++ "\n") =
      ⟨line ++ "\n", 0, width, true⟩ := by
    rw [write_block line (c := '\n') rfl, Nat.zero_mul, indentText_zero, String.empty_append,
      decide_eq_true rfl]
  have hprints : Writer.Prints [.write line, .newLine] (line ++ "\n") :=
    Writer.Prints.append (.single rfl) (.single rfl)
  exact (hwrite ▸ hprints.leads _).append (Writer.Leads.indent _)

theorem leads_semicolon (out : String) (width : Nat) :
    Writer.Leads ⟨out, 1, width, false⟩ [.line ");", .newLine]
      ⟨out ++ ");\n\n", 1, width, true⟩ := by
  refine ⟨?_, by simp [Writer.Grounded]⟩
  have hwrite : Writer.write ⟨out, 1, width, false⟩ ");" = ⟨out ++ ");", 1, width, false⟩ :=
    Writer.write_of_not_atLineStart rfl (c := ';') rfl (by decide)
  have hbreaks : out ++ ");\n\n" = out ++ ");" ++ "\n" ++ "\n" := by
    rw [String.append_assoc, String.append_assoc]
    rfl
  simp only [Writer.applyAll_cons, Writer.applyAll_nil, Writer.apply, Writer.write_append, hwrite,
    Writer.write_newLine, hbreaks]

theorem leads_footer (out : String) (width : Nat) :
    Writer.Leads ⟨out, 1, width, true⟩ [.outdent, .line "\x7d);"]
      ⟨out ++ "\x7d);\n", 0, width, true⟩ := by
  refine ⟨?_, by simp [Writer.Grounded]⟩
  have hwrite : Writer.write ⟨out, 0, width, true⟩ ("\x7d);" ++ "\n") =
      ⟨out ++ "\x7d);\n", 0, width, true⟩ := by
    rw [write_block "\x7d);" (c := '\n') rfl, Nat.zero_mul, indentText_zero, decide_eq_true rfl]
    rfl
  simp only [Writer.applyAll_cons, Writer.applyAll_nil, Writer.apply, hwrite]

end Blocks

/-! ### The whole module -/

theorem isPublic_of_mem_internalTypes {symbols : SymbolSet} {includeTests : Bool} {t : TypeSymbol}
    (h : t ∈ (symbols.selection includeTests).internalTypes) : t.isPublic = false := by
  have hmem : t ∈ (symbols.selected includeTests).filter (!·.isPublic) := List.mem_mergeSort.mp h
  simpa using (List.mem_filter.mp hmem).2

theorem isPublic_of_mem_publicTypes {symbols : SymbolSet} {includeTests : Bool} {t : TypeSymbol}
    (h : t ∈ (symbols.selection includeTests).publicTypes) : t.isPublic = true := by
  have hmem : t ∈ (symbols.selected includeTests).filter (·.isPublic) := List.mem_mergeSort.mp h
  exact (List.mem_filter.mp hmem).2

theorem calls_outline (options : Options) (symbols : SymbolSet) :
    (outline options symbols).filterMap Step.call? = moduleCalls options symbols := by
  have hframe : ∀ ops : List Writer.Op, (ops.map Step.op).filterMap Step.call? = [] := by
    intro ops
    simp [List.filterMap_map, Function.comp_def, Step.call?]
  simp only [outline_eq, headSteps, tailSteps, List.filterMap_append, hframe, calls_calls,
    calls_registrationBucket, List.nil_append, List.append_nil, moduleCalls, List.filter_append,
    List.map_append, List.append_assoc]
  cases options.includeTests with
  | true => rfl
  | false => rfl

theorem headerLine_newLine (moduleName : String) (dependencies : List String) :
    headerLine moduleName dependencies ++ "\n" =
      "define('" ++ moduleName ++ "', [" ++
        ", ".intercalate (dependencies.map fun d => "'" ++ d ++ "'") ++ "], function(" ++
        ", ".intercalate dependencies ++ ") \x7b\n" := by
  unfold headerLine
  rw [String.append_assoc]
  rfl

/-- If the calls for each piece stand together, each text is that of its part. -/
theorem written_parts {bodies internal exported constructors scaffolds : List (Call × String)}
    {types hidden visible classes tests : List TypeSymbol}
    (hbodies : bodies.map Prod.fst = types.map (⟨.body, ·⟩))
    (hinternal : internal.map Prod.fst = hidden.map (⟨.registration, ·⟩))
    (hhidden : ∀ t ∈ hidden, t.isPublic = false)
    (hexported : exported.map Prod.fst = visible.map (⟨.registration, ·⟩))
    (hvisible : ∀ t ∈ visible, t.isPublic = true)
    (hconstructors : constructors.map Prod.fst = classes.map (⟨.constructor, ·⟩))
    (hscaffolds : scaffolds.map Prod.fst = tests.map (⟨.testScaffold, ·⟩)) :
    let said := bodies ++ internal ++ exported ++ (constructors ++ scaffolds)
    written .body said = String.join (bodies.map Prod.snd) ∧
      entries false said = internal.map entryText ∧
      entries true said = exported.map entryText ∧
      written .constructor said = String.join (constructors.map Prod.snd) ∧
      written .testScaffold said = String.join (scaffolds.map Prod.snd) := by
  simp only [written_append, entries_append, written_of_calls hbodies,
    written_of_calls hinternal, written_of_calls hexported, written_of_calls hconstructors,
    written_of_calls hscaffolds, entries_of_calls hbodies nofun,
    entries_of_calls hconstructors nofun, entries_of_calls hscaffolds nofun,
    entries_of_registration hinternal hhidden, entries_of_registration hexported hvisible]
  simp

theorem leads_outline {r : List (Step × List Writer.Op)} {options : Options} {symbols : SymbolSet}
    (h : Records r (outline options symbols)) :
    Writer.Leads ⟨"", 0, options.indentWidth, true⟩ (r.flatMap Prod.snd)
      ⟨moduleText options symbols (r.filterMap said?), 0, options.indentWidth, true⟩ := by
  rw [outline_eq] at h
  obtain ⟨r, footer, rfl, h, hfooter⟩ := h.split
  obtain ⟨r, tail, rfl, h, htail⟩ := h.split
  obtain ⟨r, semicolon, rfl, h, hsemicolon⟩ := h.split
  obtain ⟨r, exported, rfl, h, hexported⟩ := h.split
  obtain ⟨r, comma, rfl, h, hcomma⟩ := h.split
  obtain ⟨r, internal, rfl, h, hinternal⟩ := h.split
  obtain ⟨header, head, rfl, hheader, hhead⟩ := h.split
  obtain ⟨hheaderOps, hheaderSaid⟩ := hheader.frame
  obtain ⟨hcommaOps, hcommaSaid⟩ := hcomma.frame
  obtain ⟨hsemicolonOps, hsemicolonSaid⟩ := hsemicolon.frame
  obtain ⟨hfooterOps, hfooterSaid⟩ := hfooter.frame
  obtain ⟨hbodies, hfirst⟩ := leads_head hhead
  obtain ⟨constructors, scaffolds, htailSaid, hconstructors, hscaffolds, hsecond⟩ :=
    leads_tail htail
  have hhidden := hinternal.calls.trans (calls_registrationBucket _)
  have hvisible := hexported.calls.trans (calls_registrationBucket _)
  obtain ⟨hbody, hfalse, htrue, hconstructor, hscaffold⟩ :=
    written_parts hbodies hhidden
      (fun t ht => isPublic_of_mem_internalTypes (List.mem_of_mem_filter ht)) hvisible
      (fun t ht => isPublic_of_mem_publicTypes (List.mem_of_mem_filter ht)) hconstructors hscaffolds
  -- block after block, each from where the one before it ends
  have hleads := (leads_header (headerLine symbols.scriptName symbols.dependencies)
    options.indentWidth).append (hfirst _ _)
  have hleads := hleads.append (leads_bucket hinternal)
  have hleads := hleads.append (leads_inLine "," (c := ',') rfl (by decide) _ _)
  have hleads := hleads.append (leads_bucket hexported)
  have hleads := hleads.append (leads_semicolon _ _)
  have hleads := hleads.append (hsecond _ _)
  have hleads := hleads.append (leads_footer _ _)
  rw [headerLine_newLine] at hleads
  -- nothing is said in the frame, so what is said falls into the five parts
  simp only [List.flatMap_append, List.filterMap_append, hheaderOps, hcommaOps, hsemicolonOps,
    hfooterOps, hheaderSaid, hcommaSaid, hsemicolonSaid, hfooterSaid, htailSaid, List.nil_append,
    List.append_nil]
  unfold moduleText
  rw [hbody, hfalse, htrue, hconstructor, hscaffold]
  exact hleads

/-- **A module is its text.**  The calls are those of the module, in order, and what is written
is the frame with the answers in it, unless that is longer than any text can be. -/
theorem generate_writes_moduleText {σ : Type} {e : Emitter σ} (plain : e.OnlyWrites)
    (options : Options) (state : σ) (symbols : SymbolSet) :
    let start := Session.start options state
    let said := start.said e (outline options symbols)
    let text := moduleText options symbols said
    let result := start.generate e options symbols
    said.map Prod.fst = moduleCalls options symbols ∧
      (result.2 = none ∧ result.1.writer.output = text ∨
        Writer.lengthLimit < text.utf8ByteSize ∧
          ∃ refusal, refusal ≠ .outdentBelowZero ∧ result.2 = some (.refused refusal)) := by
  intro start said text result
  have hrecords : Records (start.record e (outline options symbols)) (outline options symbols) :=
    records_record plain start _
  have hleads : Writer.Leads start.writer _ ⟨text, 0, options.indentWidth, true⟩ :=
    leads_outline hrecords
  have hagrees := Writer.run_agrees hleads.grounded
  rw [hleads.applyAll, ← Session.follow_eq_run] at hagrees
  refine ⟨hrecords.calls.trans (calls_outline options symbols), ?_⟩
  rcases hfollow : start.follow e (outline options symbols) with ⟨next, failed⟩
  rw [hfollow] at hagrees
  rcases hagrees with hok | ⟨hsize, refusal, hne, hrefused⟩
  · obtain ⟨hwriter, rfl⟩ := Prod.mk.inj hok
    -- the module ends at the level where it began
    have hlevel : next.writer.level = 0 := congrArg Writer.level hwriter
    have hresult : result = (next, none) := Session.generate_of_done hfollow hlevel
    rw [hresult]
    exact Or.inl ⟨rfl, congrArg Writer.output hwriter⟩
  · obtain rfl : failed = some refusal := hrefused
    have hresult : result = (next, some (.refused refusal)) := Session.generate_of_refused hfollow
    rw [hresult]
    exact Or.inr ⟨hsize, refusal, hne, rfl⟩

/-- An emitter that numbers its answers, and a program with a class of global methods among its
internal types. -/
theorem generate_writes_moduleText_numbered :
    let e : Emitter Nat := ⟨fun call _ n => ([.line call.type.name, .write (toString n)], n + 1)⟩
    let options : Options := { includeTests := true, indentWidth := 4 }
    let symbols : SymbolSet :=
      { scriptName := "app"
        dependencies := ["ss", "lib"]
        namespaces := [⟨"App",
          [⟨"Main", .classType 0 true, none, false, true, false⟩,
            ⟨"Page", .classType 1 false, some "page", true, true, true⟩,
            ⟨"Shape", .interfaceType, none, false, true, false⟩]⟩] }
    e.OnlyWrites ∧
      let start := Session.start options 0
      let said := start.said e (outline options symbols)
      let text := moduleText options symbols said
      let result := start.generate e options symbols
      said.map Prod.fst = moduleCalls options symbols ∧
        (result.2 = none ∧ result.1.writer.output = text ∨
          Writer.lengthLimit < text.utf8ByteSize ∧
            ∃ refusal, refusal ≠ .outdentBelowZero ∧ result.2 = some (.refused refusal)) := by
  intro e options symbols
  have plain : e.OnlyWrites := by
    intro call writer n op hop
    rcases List.mem_pair.mp hop with rfl | rfl
    · rfl
    · rfl
  exact ⟨plain, generate_writes_moduleText plain options 0 symbols⟩

end ScriptBackend.Script

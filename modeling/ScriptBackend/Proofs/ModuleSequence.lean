import ScriptBackend.Compilation
import ScriptBackend.Proofs.CallSequence
import ScriptBackend.Proofs.LevelBalance

/-! # Modules one after another

A session can generate several modules, each behind the text of those before it.  If the
answers of the emitter depend on the calls alone, each module is what it would be in a session
of its own.

The two sessions go through the same steps, and the only difference between their writers is
the text in front (`Writer.behind`).  No operation looks at it, except that the text can become
too long.  A module that is finished leaves the writer at level zero and at the beginning of a
line, so the next one begins as in a new session.
-/
namespace ScriptBackend.Script

namespace Writer

variable {w : Writer} {op : Op} {ops : List Op}

/-- The writer with a text in front of its own. -/
def behind (text : String) (w : Writer) : Writer :=
  { w with output := text ++ w.output }

/-- Behind a text the result is the same, or with the text in front the whole is too long. -/
def SameBehind (text : String) (free : Writer) (later alone : Writer × Option Refusal) : Prop :=
  later = (alone.1.behind text, alone.2) ∨
    later.2 = some .lengthOverflow ∧
      lengthLimit < text.utf8ByteSize + free.output.utf8ByteSize

theorem put_behind (text : String) (w : Writer) (c : Char) :
    (w.behind text).put c = (w.put c).behind text := by
  have hpush (out : String) : (text ++ out).push c = text ++ out.push c := by
    simp [← String.toList_inj]
  unfold put behind
  split
  · simp [← String.toList_inj]
  · split
    · simp only [indentation, String.append_assoc, hpush]
    · simp only [hpush]

/-- Only the bound on the length is nearer behind a text. -/
theorem refusal?_behind (text : String) (w : Writer) (c : Char) :
    (w.behind text).refusal? c = w.refusal? c ∨
      (w.behind text).refusal? c = some .lengthOverflow ∧
        lengthLimit < text.utf8ByteSize + (w.put c).output.utf8ByteSize := by
  have hsize : (w.behind text).output.utf8ByteSize = text.utf8ByteSize + w.output.utf8ByteSize :=
    String.utf8ByteSize_append
  have hindent : (w.behind text).indentation = w.indentation := rfl
  have hstart : (w.behind text).atLineStart = w.atLineStart := rfl
  unfold refusal?
  rw [hstart]
  split
  case isFalse => exact Or.inl rfl
  case isTrue hfirst =>
    simp only [Bool.and_eq_true, decide_eq_true_eq] at hfirst
    have hput : (w.put c).output.utf8ByteSize =
        w.output.utf8ByteSize + w.indentation + c.utf8Size := by
      simp [put, hfirst.1, hfirst.2, utf8ByteSize_spaces]
    unfold overflow?
    rw [hsize, hindent]
    by_cases hcount : countLimit < w.indentation
    · exact Or.inl (by rw [if_pos hcount, if_pos hcount])
    · rw [if_neg hcount, if_neg hcount]
      by_cases hlength : lengthLimit < w.output.utf8ByteSize + w.indentation
      · exact Or.inl (by rw [if_pos hlength, if_pos (by omega)])
      · by_cases hlong : lengthLimit < text.utf8ByteSize + w.output.utf8ByteSize + w.indentation
        · exact Or.inr ⟨if_pos hlong, by omega⟩
        · exact Or.inl (by rw [if_neg hlength, if_neg hlong])

theorem feed_behind (text : String) (w : Writer) (cs : List Char) :
    SameBehind text (cs.foldl put w) ((w.behind text).feed cs) (w.feed cs) := by
  induction cs generalizing w with
  | nil => exact Or.inl rfl
  | cons c cs ih =>
    unfold feed
    rcases refusal?_behind text w c with hsame | ⟨hlong, hsize⟩
    · rw [hsame]
      cases w.refusal? c with
      | some r => exact Or.inl rfl
      | none =>
        simp only [put_behind]
        exact ih (w.put c)
    · rw [hlong]
      have hmono := size_le_foldl_put (w.put c) cs
      exact Or.inr ⟨rfl, by rw [List.foldl_cons]; omega⟩

theorem perform_behind (text : String) (w : Writer) (op : Op) :
    SameBehind text (w.apply op) ((w.behind text).perform op) (w.perform op) := by
  cases op with
  | write t => exact feed_behind text w t.toList
  | line t =>
    have hline : (t ++ "\n").toList = t.toList ++ ['\n'] := String.toList_append
    rw [apply, write, hline, perform_line, perform_line]
    exact feed_behind text w _
  | newLine => exact Or.inl (Prod.ext (put_behind text w '\n') rfl)
  | indent => exact Or.inl rfl
  | outdent =>
    refine Or.inl ?_
    by_cases hlevel : w.level = 0
    · simp [perform, outdent?, behind, hlevel]
    · simp [perform, outdent?, behind, hlevel]

/-- Operations that are carried out to their end are carried out as without bounds. -/
theorem eq_applyAll_of_run {next : Writer} (h : w.run ops = (next, none)) :
    next = w.applyAll ops := by
  rcases w.run_cases ops with ⟨hdone, -⟩ | ⟨hrefused, -⟩ | ⟨⟨r, -, hrefused⟩, -⟩
  · exact congrArg Prod.fst (h.symm.trans hdone)
  · rw [h] at hrefused
    cases hrefused
  · rw [h] at hrefused
    cases hrefused

/-- **A run behind a text is the run without it**, unless the whole is too long. -/
theorem run_behind (text : String) (w : Writer) (ops : List Op) :
    SameBehind text (w.applyAll ops) ((w.behind text).run ops) (w.run ops) := by
  induction ops generalizing w with
  | nil => exact Or.inl rfl
  | cons op ops ih =>
    rw [run, run, applyAll_cons]
    rcases perform_behind text w op with hsame | ⟨hlong, hsize⟩
    · rw [hsame]
      rcases hperform : w.perform op with ⟨next, _ | r⟩
      · have hrun : w.run [op] = (next, none) := by rw [run_singleton, hperform]
        obtain rfl : next = w.apply op := eq_applyAll_of_run hrun
        exact ih (w.apply op)
      · exact Or.inl rfl
    · have hmono := size_le_applyAll (w.apply op) ops
      rcases hperform : (w.behind text).perform op with ⟨next, refusal⟩
      rw [hperform] at hlong
      obtain rfl : refusal = some .lengthOverflow := hlong
      exact Or.inr ⟨rfl, by omega⟩

theorem width_applyAll (w : Writer) (ops : List Op) : (w.applyAll ops).width = w.width := by
  induction ops generalizing w with
  | nil => rfl
  | cons op ops ih =>
    rw [applyAll_cons, ih]
    cases op with
    | write | line | newLine => exact width_write w _
    | indent | outdent => rfl

end Writer

/-- The answers of the emitter depend on the call alone. -/
def Emitter.Answers {σ : Type} (e : Emitter σ) (reply : Call → List Writer.Op) : Prop :=
  ∀ call writer state, (e.emit call writer state).1 = reply call

namespace Session

variable {σ : Type} {e : Emitter σ} {reply : Call → List Writer.Op}
variable {s alone : Session σ} {text : String} {made : List Call}
variable {options : Options} {symbols : SymbolSet}

/-- A session is like another one, behind a text and some calls. -/
structure Behind (text : String) (made : List Call) (s alone : Session σ) : Prop where
  writer : s.writer = alone.writer.behind text
  calls : s.calls = made ++ alone.calls

/-- Two sessions stay alike and stop alike, or the later one stops because the text is too
long. -/
def Alike (text : String) (made : List Call) (free : Writer)
    (later alone : Session σ × Option Writer.Refusal) : Prop :=
  Behind text made later.1 alone.1 ∧ later.2 = alone.2 ∨
    later.2 = some .lengthOverflow ∧
      Writer.lengthLimit < text.utf8ByteSize + free.output.utf8ByteSize

theorem ops_behind (h : e.Answers reply) (s alone : Session σ) (st : Step) :
    s.ops e st = alone.ops e st := by
  cases st with
  | op o => rfl
  | call c => exact (h c _ _).trans (h c _ _).symm

theorem step_behind (h : e.Answers reply) (hbehind : Behind text made s alone) (st : Step) :
    Alike text made (alone.writer.applyAll (alone.ops e st)) (s.step e st) (alone.step e st) := by
  have hrun := Writer.run_behind text alone.writer (alone.ops e st)
  rw [← hbehind.writer, ← step_eq_run, ← ops_behind h s alone st, ← step_eq_run] at hrun
  rcases hrun with hsame | hlong
  · obtain ⟨hwriter, hrefusal⟩ := Prod.mk.inj hsame
    refine Or.inl ⟨⟨hwriter, ?_⟩, hrefusal⟩
    rw [calls_step, calls_step, hbehind.calls, List.append_assoc]
  · exact Or.inr (by rwa [ops_behind h alone s st])

/-- A step that the writer takes is carried out as without bounds. -/
theorem writer_step {next : Session σ} {st : Step} (h : s.step e st = (next, none)) :
    next.writer = s.writer.applyAll (s.ops e st) := by
  have hrun := s.step_eq_run (e := e) st
  rw [h] at hrun
  exact Writer.eq_applyAll_of_run hrun.symm

/-- Steps that the writer takes are carried out as without bounds. -/
theorem writer_follow {next : Session σ} {steps : List Step} (h : s.follow e steps = (next, none)) :
    next.writer = s.unbounded e steps := by
  have hrun := s.follow_eq_run (e := e) steps
  rw [h] at hrun
  exact Writer.eq_applyAll_of_run hrun.symm

/-- **The same steps behind a text.** -/
theorem follow_behind (h : e.Answers reply) (hbehind : Behind text made s alone)
    (steps : List Step) :
    Alike text made (alone.unbounded e steps) (s.follow e steps) (alone.follow e steps) := by
  induction steps generalizing s alone with
  | nil => exact Or.inl ⟨hbehind, rfl⟩
  | cons st steps ih =>
    have hfree : alone.unbounded e (st :: steps) =
        (alone.writer.applyAll (alone.ops e st)).applyAll
          (((alone.step e st).1.record e steps).flatMap Prod.snd) := by
      rw [unbounded, record, List.flatMap_cons, Writer.applyAll_append]
    have hstep := step_behind h hbehind st
    rw [follow, follow, hfree]
    rcases hlater : s.step e st with ⟨next, refusal⟩
    rcases halone : alone.step e st with ⟨nextAlone, refusal'⟩
    rw [hlater, halone] at hstep
    rcases hstep with ⟨hnext, hrefusal⟩ | ⟨hlong, hsize⟩
    · obtain rfl : refusal = refusal' := hrefusal
      cases refusal with
      | none =>
        rw [← writer_step halone]
        exact ih hnext
      | some r => exact Or.inl ⟨hnext, rfl⟩
    · -- what comes after the refusal would only make the text longer
      obtain rfl : refusal = some .lengthOverflow := hlong
      have hmono := Writer.size_le_applyAll (alone.writer.applyAll (alone.ops e st))
        ((nextAlone.record e steps).flatMap Prod.snd)
      exact Or.inr ⟨rfl, Nat.lt_of_lt_of_le hsize (Nat.add_le_add_left hmono _)⟩

/-- **The same module behind a text.** -/
theorem generate_behind (h : e.Answers reply) (hbehind : Behind text made s alone)
    (options : Options) (symbols : SymbolSet) :
    Behind text made (s.generate e options symbols).1 (alone.generate e options symbols).1 ∧
        (s.generate e options symbols).2 = (alone.generate e options symbols).2 ∨
      (s.generate e options symbols).2 = some (.refused .lengthOverflow) ∧
        Writer.lengthLimit < text.utf8ByteSize +
          (alone.unbounded e (outline options symbols)).output.utf8ByteSize := by
  have hfollow := follow_behind h hbehind (outline options symbols)
  have hstart : s.writer.level = alone.writer.level := by
    rw [hbehind.writer]
    rfl
  rcases hlater : s.follow e (outline options symbols) with ⟨next, refusal⟩
  rcases halone : alone.follow e (outline options symbols) with ⟨nextAlone, refusal'⟩
  rw [hlater, halone] at hfollow
  rcases hfollow with ⟨hnext, hrefusal⟩ | ⟨hlong, hsize⟩
  · obtain rfl : refusal = refusal' := hrefusal
    have hend : next.writer.level = nextAlone.writer.level := by
      rw [hnext.writer]
      rfl
    refine Or.inl ?_
    cases refusal with
    | some r =>
      rw [generate_of_refused hlater, generate_of_refused halone]
      exact ⟨hnext, rfl⟩
    | none =>
      by_cases hlevel : nextAlone.writer.level = alone.writer.level
      · rw [generate_of_done halone hlevel, generate_of_done hlater (by rw [hend, hstart, hlevel])]
        exact ⟨hnext, rfl⟩
      · rw [generate_of_unbalanced halone hlevel,
          generate_of_unbalanced hlater (by rwa [hend, hstart]), hend, hstart]
        exact ⟨hnext, rfl⟩
  · obtain rfl : refusal = some .lengthOverflow := hlong
    rw [generate_of_refused hlater]
    exact Or.inr ⟨rfl, hsize⟩

/-! ### The end of a module -/

/-- The writer is at level zero and at the beginning of a line. -/
def Settled (options : Options) (text : String) (s : Session σ) : Prop :=
  s.writer = ⟨text, 0, options.indentWidth, true⟩

theorem settled_start (options : Options) (state : σ) : Settled options "" (start options state) :=
  rfl

theorem Settled.behind (h : Settled options text s) (state : σ) :
    Behind text s.calls s (start options state) where
  writer := by
    rw [h]
    simp [start, Writer.behind]
  calls := (List.append_nil s.calls).symm

theorem perform_last {next : Session σ} {steps : List Step} {o : Writer.Op}
    (h : s.follow e (steps ++ [.op o]) = (next, none)) :
    ∃ w : Writer, w.perform o = (next.writer, none) := by
  induction steps generalizing s with
  | nil =>
    rw [List.nil_append, follow] at h
    rcases hstep : s.step e (.op o) with ⟨last, _ | r⟩
    · rw [hstep] at h
      obtain rfl : last = next := congrArg Prod.fst h
      have hrun := s.step_eq_run (e := e) (.op o)
      rw [hstep] at hrun
      exact ⟨s.writer, (hrun.trans (Writer.run_singleton s.writer o)).symm⟩
    · rw [hstep] at h
      cases h
  | cons st steps ih =>
    rw [List.cons_append, follow] at h
    rcases hstep : s.step e st with ⟨mid, _ | r⟩
    · rw [hstep] at h
      exact ih h
    · rw [hstep] at h
      cases h

/-- The last step of a module ends a line. -/
theorem atLineStart_follow {next : Session σ}
    (h : s.follow e (outline options symbols) = (next, none)) : next.writer.atLineStart = true := by
  have hlast : outline options symbols =
      ([Writer.Op.write (headerLine symbols.scriptName symbols.dependencies), .newLine,
          .indent].map .op ++ interior options symbols ++ [.op .outdent]) ++
        [.op (.line "\x7d);")] := by
    rw [outline_eq_interior]
    simp
  rw [hlast] at h
  obtain ⟨w, hperform⟩ := perform_last h
  have hfeed : w.perform (.line "\x7d);") = w.feed "\x7d);\n".toList := w.perform_line "\x7d);"
  rw [hfeed] at hperform
  have hwrite : next.writer = w.write "\x7d);\n" :=
    (congrArg Prod.fst hperform).symm.trans (Writer.feed_eq_write (congrArg Prod.snd hperform))
  rw [hwrite, w.atLineStart_write (c := '\n') rfl]
  rfl

theorem generate_eq_none (h : (s.generate e options symbols).2 = none) :
    ∃ next, s.follow e (outline options symbols) = (next, none) ∧
      next.writer.level = s.writer.level ∧ s.generate e options symbols = (next, none) := by
  rcases hfollow : s.follow e (outline options symbols) with ⟨next, _ | r⟩
  · by_cases hlevel : next.writer.level = s.writer.level
    · exact ⟨next, rfl, hlevel, generate_of_done hfollow hlevel⟩
    · rw [generate_of_unbalanced hfollow hlevel] at h
      cases h
  · rw [generate_of_refused hfollow] at h
    cases h

/-- **A module that is finished leaves the writer as it was**, but for the text. -/
theorem Settled.generate (h : Settled options text s)
    (hdone : (s.generate e options symbols).2 = none) :
    Settled options (s.generate e options symbols).1.writer.output
      (s.generate e options symbols).1 := by
  obtain ⟨next, hfollow, hlevel, hresult⟩ := generate_eq_none hdone
  have hwidth : next.writer.width = options.indentWidth := by
    rw [writer_follow hfollow, unbounded, Writer.width_applyAll, h]
  have hzero : next.writer.level = 0 := by
    rw [hlevel, h]
  have hstart := atLineStart_follow hfollow
  rw [hresult]
  unfold Settled
  rw [← hwidth, ← hzero, ← hstart]

/-! ### Several modules -/

theorem generateAll_append (s : Session σ) (before after : List SymbolSet) :
    s.generateAll e options (before ++ after) =
      (((s.generateAll e options before).1.generateAll e options after).1,
        (s.generateAll e options before).2 ++
          ((s.generateAll e options before).1.generateAll e options after).2) := by
  induction before generalizing s with
  | nil => rfl
  | cons symbols before ih =>
    rw [List.cons_append, generateAll_cons, generateAll_cons, ih, List.cons_append]

/-- A module that is finished is that of a session of its own, behind the text before it. -/
theorem Settled.generate_alone (h : e.Answers reply) (fresh : σ) (hsettled : Settled options text s)
    (hdone : (s.generate e options symbols).2 = none) :
    ∃ alone, (Compilation.generate options e fresh symbols {}).result = .ok alone ∧
      Settled options (text ++ alone) (s.generate e options symbols).1 := by
  have hnext := hsettled.generate hdone
  rcases generate_behind h (hsettled.behind fresh) options symbols with
    ⟨hbehind, hsame⟩ | ⟨hlong, -⟩
  · rcases hfresh : (start options fresh).generate e options symbols with ⟨alone, failure⟩
    rw [hfresh] at hbehind hsame
    obtain rfl : none = failure := hdone.symm.trans hsame
    refine ⟨alone.writer.output, by rw [Compilation.generate_eq hfresh], ?_⟩
    rw [hbehind.writer] at hnext
    exact hnext
  · rw [hdone] at hlong
    cases hlong

/-- Modules that are all finished are those of sessions of their own, one after another. -/
theorem Settled.generateAll (h : e.Answers reply) (fresh : σ) {sets : List SymbolSet}
    (hsettled : Settled options text s)
    (hdone : ∀ failure ∈ (s.generateAll e options sets).2, failure = none) :
    ∃ texts, sets.map (fun symbols => (Compilation.generate options e fresh symbols {}).result) =
        texts.map .ok ∧
      Settled options (text ++ String.join texts) (s.generateAll e options sets).1 := by
  induction sets generalizing s text with
  | nil => exact ⟨[], rfl, by simpa [Session.generateAll] using hsettled⟩
  | cons symbols sets ih =>
    rw [generateAll_cons] at hdone ⊢
    obtain ⟨hfirst, hrest⟩ := List.forall_mem_cons.mp hdone
    obtain ⟨alone, halone, hnext⟩ := hsettled.generate_alone h fresh hfirst
    obtain ⟨texts, htexts, hlast⟩ := ih hnext hrest
    refine ⟨alone :: texts, ?_, ?_⟩
    · rw [List.map_cons, List.map_cons, halone, htexts]
    · rw [String.join_cons, ← String.append_assoc]
      exact hlast

/-- **Modules one after another are the modules by themselves.**  If none of them fails, the text
is that of new sessions one after another, and each of them leaves the writer at level zero and
at the beginning of a line.  The next module fails as in a new session, with the same text and
the same calls up to there, unless the whole text would be too long. -/
theorem generateAll_concatenates {σ : Type} {e : Emitter σ} {reply : Call → List Writer.Op}
    (answers : e.Answers reply) (options : Options) (state fresh : σ) (sets : List SymbolSet)
    (done : ∀ failure ∈ ((start options state).generateAll e options sets).2, failure = none) :
    let last := ((start options state).generateAll e options sets).1
    (∃ texts, sets.map (fun symbols => (Compilation.generate options e fresh symbols {}).result) =
        texts.map .ok ∧ last.writer.output = String.join texts) ∧
      (∀ before after, sets = before ++ after →
        let now := ((start options state).generateAll e options before).1
        now.writer.level = 0 ∧ now.writer.atLineStart = true) ∧
      ∀ symbols,
        let later := last.generate e options symbols
        let alone := (start options fresh).generate e options symbols
        let free := (start options fresh).unbounded e (outline options symbols)
        later.2 = alone.2 ∧
            later.1.writer.output = last.writer.output ++ alone.1.writer.output ∧
            later.1.calls = last.calls ++ alone.1.calls ∨
          later.2 = some (.refused .lengthOverflow) ∧
            Writer.lengthLimit < last.writer.output.utf8ByteSize + free.output.utf8ByteSize := by
  intro last
  obtain ⟨texts, htexts, hlast⟩ := (settled_start options state).generateAll answers fresh done
  rw [String.empty_append] at hlast
  have houtput : last.writer.output = String.join texts := congrArg Writer.output hlast
  refine ⟨⟨texts, htexts, houtput⟩, ?_, ?_⟩
  · rintro before after rfl
    rw [generateAll_append] at done
    have hbefore : ∀ failure ∈ ((start options state).generateAll e options before).2,
        failure = none := fun failure hfailure => done failure (List.mem_append_left _ hfailure)
    obtain ⟨_, -, hnow⟩ := (settled_start options state).generateAll answers fresh hbefore
    exact ⟨congrArg Writer.level hnow, congrArg Writer.atLineStart hnow⟩
  · intro symbols
    rw [houtput]
    have hsettled : Settled options (String.join texts) last := hlast
    clear_value last
    rcases generate_behind answers (hsettled.behind fresh) options symbols with
      ⟨hbehind, hsame⟩ | hlong
    · exact Or.inl ⟨hsame, congrArg Writer.output hbehind.writer, hbehind.calls⟩
    · exact Or.inr hlong

/-- Bodies that leave their line unfinished and the level raised, until the constructors lower
it again. -/
theorem generateAll_concatenates_unfinished :
    let reply (call : Call) : List Writer.Op :=
      match call.piece with
      | .body => [.line call.type.name, .indent, .write "new"]
      | .constructor => [.outdent]
      | _ => []
    let e : Emitter Nat := ⟨fun call _ n => (reply call, n + 1)⟩
    let options : Options := { includeTests := false, indentWidth := 2 }
    let sets : List SymbolSet :=
      [{ scriptName := "lib", namespaces := [⟨"Lib", [⟨"Shape", .classType 0 false, none, true,
          true, false⟩]⟩] },
        { scriptName := "app", dependencies := ["lib"], namespaces := [⟨"App", [⟨"Page",
          .classType 1 false, none, false, true, false⟩]⟩] }]
    let last := ((start options 0).generateAll e options sets).1
    e.Answers reply ∧
      (∀ failure ∈ ((start options 0).generateAll e options sets).2, failure = none) ∧
      ∃ texts, sets.map (fun symbols => (Compilation.generate options e 7 symbols {}).result) =
        texts.map .ok ∧ last.writer.output = String.join texts := by
  intro reply e options sets last
  have answers : e.Answers reply := fun call writer state => rfl
  have hnone : ((start options 0).generateAll e options sets).2 = [none, none] := by
    decide +kernel
  have done : ∀ failure ∈ ((start options 0).generateAll e options sets).2, failure = none := by
    simp [hnone]
  -- from here on the values would only be evaluated again
  clear_value reply e options sets
  exact ⟨answers, done, (generateAll_concatenates answers options 0 7 sets done).1⟩

end Session
end ScriptBackend.Script

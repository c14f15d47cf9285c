import Mathlib.Data.List.Nodup
import ScriptBackend.Toml.Misfit

/-! # Fields of a table

A record is read from the top-level table of a document, entry by entry.  What becomes of a field
can be said without the order of the entries (`Entries.Gives`): it has the value that the entry of
its key says, and if there is none, it stays as it is.  That one entry after the other gives the
same (`Entries.foldlM_eq_ok_iff`) needs no more than a look at the first entry, provided that no
key occurs twice.

No key does, in a table that is read from a text (`nodup_keys_read`): a line adds a key that is not
there yet, or it changes the value of one that is, or it moves a key to the end.
-/
namespace ScriptBackend.Toml

namespace Entries

variable {entries rest : Entries} {key k : String} {value v : Value}

/-- The keys of a table, in document order. -/
def keys (entries : Entries) : List String :=
  entries.map Prod.fst

/-! ### Keys that are distinct -/

theorem lookup_eq_none_iff_not_mem : entries.lookup key = none ↔ key ∉ entries.keys := by
  simp only [List.lookup_eq_none_iff, keys, List.mem_map, not_exists, not_and, bne_iff_ne, ne_eq]
  exact forall₂_congr fun p _ => not_congr eq_comm

/-- Where keys are distinct, a key finds its entry wherever that stands. -/
theorem lookup_eq_some_iff_mem (hnodup : entries.keys.Nodup) :
    entries.lookup key = some value ↔ (key, value) ∈ entries := by
  induction entries with
  | nil => simp
  | cons entry entries ih =>
    obtain ⟨k, v⟩ := entry
    obtain ⟨hk, hnodup⟩ := List.nodup_cons.mp hnodup
    by_cases hkey : key = k
    · subst hkey
      have hnot : (key, value) ∉ entries := fun hmem =>
        hk (List.mem_map.mpr ⟨(key, value), hmem, rfl⟩)
      simp [hnot, eq_comm]
    · simp [List.lookup_cons, beq_false_of_ne hkey, hkey, ih hnodup]

theorem lookup_perm {a b : Entries} (h : a.Perm b) (hnodup : a.keys.Nodup) (key : String) :
    a.lookup key = b.lookup key := by
  have hnodup' : b.keys.Nodup := (h.map Prod.fst).nodup_iff.mp hnodup
  refine Option.ext fun value => ?_
  rw [lookup_eq_some_iff_mem hnodup, lookup_eq_some_iff_mem hnodup', h.mem_iff]

/-- The entries of other keys do not matter to a lookup. -/
theorem lookup_filter {p : String → Bool} (h : p key = true) :
    (entries.filter fun entry => p entry.1).lookup key = entries.lookup key := by
  induction entries with
  | nil => rfl
  | cons entry entries ih =>
    obtain ⟨k, v⟩ := entry
    by_cases hkey : key = k
    · subst hkey
      rw [List.filter_cons, if_pos h, List.lookup_cons_self, List.lookup_cons_self]
    · rw [List.filter_cons, List.lookup_cons, beq_false_of_ne hkey]
      split
      · rw [List.lookup_cons, beq_false_of_ne hkey]
        exact ih
      · exact ih

/-! ### Tables that are read -/

/-- What a line does to a table that it adds to: it adds a key, gives a key another value, or
moves a key to the end. -/
inductive Change (entries : Entries) : Entries → Prop where
  | add (key : String) (value : Value) (h : entries.lookup key = none) :
    Change entries (entries.append key value)
  | exchange (key : String) (value : Value) : Change entries (entries.exchange key value)
  | move (key : String) (value : Value) : Change entries ((entries.remove key).append key value)

theorem nodup_append (hnodup : entries.keys.Nodup) (hkey : key ∉ entries.keys) :
    (entries.append key value).keys.Nodup := by
  have hkeys : (entries.append key value).keys = entries.keys ++ [key] := List.map_append
  rw [hkeys, ← List.concat_eq_append]
  exact hnodup.concat hkey

theorem keys_exchange (entries : Entries) (key : String) (value : Value) :
    (entries.exchange key value).keys = entries.keys := by
  rw [keys, exchange, List.map_map]
  refine List.map_congr_left fun entry _ => ?_
  by_cases hkey : entry.1 = key
  · simp [hkey]
  · simp [hkey]

theorem not_mem_keys_remove (entries : Entries) (key : String) :
    key ∉ (entries.remove key).keys := by
  intro hmem
  obtain ⟨entry, hentry, rfl⟩ := List.mem_map.mp hmem
  exact absurd rfl (of_decide_eq_true (List.mem_filter.mp hentry).2)

/-- A change keeps keys distinct. -/
theorem Change.nodup {result : Entries} (h : Change entries result)
    (hnodup : entries.keys.Nodup) : result.keys.Nodup := by
  cases h with
  | add key value h => exact nodup_append hnodup (lookup_eq_none_iff_not_mem.mp h)
  | exchange key value => rwa [keys_exchange]
  | move key value =>
    have hremove : (entries.remove key).keys.Nodup :=
      hnodup.sublist (List.filter_sublist.map Prod.fst)
    exact nodup_append hremove (entries.not_mem_keys_remove key)

section

variable {result : Entries} {β : Type} {inner : Option β} {content : β → Value}

theorem Change.of_add (hnew : entries.lookup key = none)
    (h : (inner.bind fun x => some (entries.append key (content x))) = some result) :
    Change entries result := by
  obtain ⟨x, -, hresult⟩ := Option.bind_eq_some_iff.mp h
  obtain rfl := Option.some.inj hresult
  exact .add key (content x) hnew

theorem Change.of_exchange
    (h : (inner.bind fun x => some (entries.exchange key (content x))) = some result) :
    Change entries result := by
  obtain ⟨x, -, hresult⟩ := Option.bind_eq_some_iff.mp h
  obtain rfl := Option.some.inj hresult
  exact .exchange key (content x)

/-- A pair changes one entry of the table, wherever its path leads. -/
theorem change_assign {own : Bool} {path : KeyPath}
    (h : assign own path value entries = some result) : Change entries result := by
  unfold assign at h
  split at h
  · exact absurd h (by simp)
  · split at h
    · rename_i hnew
      rw [Bool.and_eq_true, Option.isNone_iff_eq_none] at hnew
      obtain rfl := Option.some.inj h
      exact .add _ _ hnew.2
    · exact absurd h (by simp)
  · -- of a path with several parts, the table only has the first
    split at h
    · exact .of_add ‹_› h
    · exact .of_exchange h
    · exact .of_exchange h
    · obtain ⟨last, -, h⟩ := Option.bind_eq_some_iff.mp h
      exact .of_exchange h
    · exact absurd h (by simp)

theorem change_openTable {pairs : List (KeyPath × Value)}
    (h : openTable pairs key entries = some result) : Change entries result := by
  unfold openTable at h
  split at h
  · exact .of_add ‹_› h
  · obtain ⟨inner, -, hresult⟩ := Option.bind_eq_some_iff.mp h
    obtain rfl := Option.some.inj hresult
    exact .move _ _
  · exact absurd h (by simp)

theorem change_openElement {pairs : List (KeyPath × Value)}
    (h : openElement pairs key entries = some result) : Change entries result := by
  obtain ⟨inner, -, h⟩ := Option.bind_eq_some_iff.mp h
  split at h
  · obtain rfl := Option.some.inj h
    exact .add _ _ ‹_›
  · obtain rfl := Option.some.inj h
    exact .exchange _ _
  · exact absurd h (by simp)

/-- So does a header. -/
theorem change_place {change : String → Entries → Option Entries} {path : KeyPath}
    (hchange : ∀ key, change key entries = some result → Change entries result)
    (h : place change path entries = some result) : Change entries result := by
  unfold place at h
  split at h
  · exact absurd h (by simp)
  · exact hchange _ h
  · split at h
    · exact .of_add ‹_› h
    · exact absurd h (by simp)
    · exact .of_exchange h
    · obtain ⟨last, -, h⟩ := Option.bind_eq_some_iff.mp h
      exact .of_exchange h
    · exact absurd h (by simp)

end

/-- What every step keeps, all steps together keep. -/
theorem nodup_foldlM {α : Type} {step : Entries → α → Option Entries} {steps : List α}
    (hstep : ∀ a entries result, step entries a = some result → entries.keys.Nodup →
      result.keys.Nodup)
    {entries result : Entries} (h : steps.foldlM step entries = some result)
    (hnodup : entries.keys.Nodup) : result.keys.Nodup := by
  induction steps generalizing entries with
  | nil =>
    obtain rfl := Option.some.inj h
    exact hnodup
  | cons a steps ih =>
    rw [List.foldlM_cons] at h
    obtain ⟨next, hnext, h⟩ := Option.bind_eq_some_iff.mp h
    exact ih h (hstep a entries next hnext hnodup)

theorem nodup_addSection {s : Section} {result : Entries} (h : addSection entries s = some result)
    (hnodup : entries.keys.Nodup) : result.keys.Nodup := by
  unfold addSection at h
  split at h
  · exact nodup_foldlM (fun _ _ _ hassign => (change_assign hassign).nodup) h hnodup
  · exact (change_place (fun _ => change_openTable) h).nodup hnodup
  · exact (change_place (fun _ => change_openElement) h).nodup hnodup

/-- **The keys of a document are distinct.** -/
theorem nodup_keys_read {text : String} (h : read text = some entries) : entries.keys.Nodup := by
  obtain ⟨lines, -, h⟩ := Option.bind_eq_some_iff.mp h
  exact nodup_foldlM (fun _ _ _ => nodup_addSection) h List.nodup_nil

/-! ### Fields of a record -/

/-- What becomes of a field: its value `fits` the entry of its key, and is `otherwise` if there is
none. -/
def Gives {α : Type} (entries : Entries) (key : String) (fits : Value → α → Prop)
    (otherwise a : α) : Prop :=
  match entries.lookup key with
  | none => a = otherwise
  | some value => fits value a

section

variable {α : Type} {fits : Value → α → Prop} {otherwise a : α}

theorem gives_of_not_mem (h : key ∉ entries.keys) :
    entries.Gives key fits otherwise a ↔ a = otherwise := by
  rw [Gives, lookup_eq_none_iff_not_mem.mpr h]

theorem gives_cons_self :
    Gives ((key, value) :: rest) key fits otherwise a ↔ fits value a := by
  rw [Gives, List.lookup_cons_self]

theorem gives_cons_of_ne (h : key ≠ k) :
    Gives ((k, v) :: rest) key fits otherwise a ↔ rest.Gives key fits otherwise a := by
  rw [Gives, List.lookup_cons, beq_false_of_ne h, Gives]

theorem gives_perm {a b : Entries} (h : a.Perm b) (hnodup : a.keys.Nodup) {x : α} :
    a.Gives key fits otherwise x ↔ b.Gives key fits otherwise x := by
  rw [Gives, Gives, lookup_perm h hnodup]

end

/-- **A record that is read entry by entry.**  If `Reads` is right about an empty table, and about
the first entry of a table in which its key does not occur again, it tells what all entries give. -/
theorem foldlM_eq_ok_iff {ρ : Type} {set : ρ → String → Value → Except Misfit ρ}
    {Reads : ρ → Entries → ρ → Prop}
    (hnil : ∀ before after, Reads before [] after ↔ before = after)
    (hcons : ∀ before key value (rest : Entries) after, key ∉ rest.keys →
      (Reads before ((key, value) :: rest) after ↔
        ∃ next, set before key value = .ok next ∧ Reads next rest after))
    (hnodup : entries.keys.Nodup) {before after : ρ} :
    entries.foldlM (fun record (key, value) => set record key value) before = .ok after ↔
      Reads before entries after := by
  induction entries generalizing before with
  | nil =>
    rw [hnil]
    exact ⟨Except.ok.inj, congrArg Except.ok⟩
  | cons entry entries ih =>
    obtain ⟨key, value⟩ := entry
    obtain ⟨hkey, hnodup⟩ := List.nodup_cons.mp hnodup
    rw [hcons before key value entries after hkey, List.foldlM_cons]
    show (set before key value).bind _ = _ ↔ _
    rcases hset : set before key value with misfit | next
    · simp [Except.bind]
    · simp [Except.bind, ih hnodup]

end Entries

/-! ### Values that fit -/

theorem map_eq_ok_iff {α ρ : Type} {result : Except Misfit α} {f : α → ρ} {record : ρ} :
    result.map f = .ok record ↔ ∃ a, result = .ok a ∧ record = f a := by
  rcases result with misfit | a
  · simp [Except.map]
  · simp [Except.map, eq_comm]

theorem bind_eq_ok_iff {α ρ : Type} {result : Except Misfit α} {f : α → Except Misfit ρ}
    {record : ρ} : result.bind f = .ok record ↔ ∃ a, result = .ok a ∧ f a = .ok record := by
  rcases result with misfit | a
  · simp [Except.bind]
  · simp [Except.bind]

namespace Value

theorem asText_eq_ok_iff {expected : String} {v : Value} {text : String} :
    v.asText expected = .ok text ↔ v = .string text := by
  cases v <;> simp [asText]

theorem asBool_eq_ok_iff {v : Value} {b : Bool} : v.asBool = .ok b ↔ v = .boolean b := by
  cases v <;> simp [asBool]

theorem asNat_eq_ok_iff {v : Value} {n : Nat} : v.asNat = .ok n ↔ v = .integer n := by
  cases v with
  | integer m =>
    simp only [asNat, integer.injEq]
    split
    · rw [Except.ok.injEq]
      omega
    · simp
      omega
  | _ => simp [asNat]

/-- Items that are all texts. -/
theorem mapM_asText_eq_ok_iff {expected : String} {items : List Value} {texts : List String} :
    items.mapM (asText expected) = .ok texts ↔ items = texts.map .string := by
  induction items generalizing texts with
  | nil => cases texts <;> simp [pure, Except.pure]
  | cons item items ih =>
    have hcons : (item :: items).mapM (asText expected) =
        (item.asText expected).bind fun text =>
          (items.mapM (asText expected)).bind fun texts => .ok (text :: texts) :=
      List.mapM_cons
    rw [hcons]
    cases texts with
    | nil =>
      rcases item.asText expected with _ | text
      · simp [Except.bind]
      · rcases items.mapM (asText expected) with _ | texts <;> simp [Except.bind]
    | cons text texts =>
      rw [List.map_cons, List.cons.injEq, ← @asText_eq_ok_iff expected, ← ih]
      rcases item.asText expected with _ | text
      · simp [Except.bind]
      · rcases items.mapM (asText expected) with _ | texts <;> simp [Except.bind]

theorem asList_asText_eq_ok_iff {expected : String} {v : Value} {texts : List String} :
    v.asList (asText expected) = .ok texts ↔ v.items? = some (texts.map .string) := by
  unfold asList
  rcases v.items? with _ | items
  · simp
  · rw [Option.some.injEq]
    exact mapM_asText_eq_ok_iff

end Value

end ScriptBackend.Toml

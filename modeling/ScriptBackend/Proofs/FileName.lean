import Mathlib.Data.List.Basic
import ScriptBackend.Disk

/-! # Files have names

Only a name leads to a file: after a slash at the end, a dot or `..` there is a directory or
nothing.  So every path that names a file has a stem.
-/
namespace ScriptBackend
namespace Disk

/-- The nodes around a place are directories. -/
def Enclosed (place : Node × List Node) : Prop :=
  ∀ node ∈ place.2, ∃ entries, node = .directory entries

/-- A step that leads to a place goes by a name, or to a directory. -/
theorem enter_ok {place next : Node × List Node} {piece : List Char} (hplace : Enclosed place)
    (h : enter place piece = .ok next) :
    Enclosed next ∧
      ((∃ entries, next.1 = .directory entries) ∨ ∃ n, Path.component? piece = some (.name n)) := by
  obtain ⟨here, around⟩ := place
  cases here with
  | file content => simp [enter] at h
  | directory entries =>
    simp only [enter] at h
    by_cases hdot : piece = [] ∨ piece = ['.']
    · rw [if_pos hdot] at h
      cases h
      exact ⟨hplace, Or.inl ⟨entries, rfl⟩⟩
    · rw [if_neg hdot] at h
      by_cases hup : piece = ['.', '.']
      · rw [if_pos hup] at h
        cases around with
        | nil =>
          cases h
          exact ⟨hplace, Or.inl ⟨entries, rfl⟩⟩
        | cons outer around =>
          cases h
          exact ⟨fun node hnode => hplace node (List.mem_cons_of_mem outer hnode),
            Or.inl (hplace outer List.mem_cons_self)⟩
      · rw [if_neg hup] at h
        refine ⟨?_, Or.inr ⟨String.ofList piece, by rw [Path.component?, if_neg hdot, if_neg hup]⟩⟩
        split at h
        · cases h
        · split at h
          · cases h
            intro node hnode
            rcases List.mem_cons.mp hnode with rfl | hnode
            · exact ⟨entries, rfl⟩
            · exact hplace node hnode
          · cases h

theorem enclosed_foldlM {start place : Node × List Node} {way : List (List Char)}
    (hstart : Enclosed start) (h : way.foldlM enter start = .ok place) : Enclosed place := by
  induction way generalizing start with
  | nil =>
    cases h
    exact hstart
  | cons piece way ih =>
    rw [List.foldlM_cons] at h
    cases hnext : enter start piece with
    | error failure =>
      rw [hnext] at h
      cases h
    | ok next =>
      rw [hnext] at h
      exact ih (enter_ok hstart hnext).1 h

theorem pieces_ne_nil (cs : List Char) : Path.pieces cs ≠ [] := by
  unfold Path.pieces
  split
  · simp
  · split
    · simp
    · split <;> simp

/-- A path that leads to a file ends in a name. -/
theorem follow_file {start : Node × List Node} {p : Path} {around : List Node}
    {content : Except ReadFailure ByteArray} (hstart : Enclosed start)
    (h : follow start p = .ok (.file content, around)) :
    ∃ n, p.components.getLast? = some (.name n) := by
  obtain ⟨way, piece, hpieces⟩ :=
    (List.eq_nil_or_concat (Path.pieces p.text.toList)).resolve_left (pieces_ne_nil _)
  rw [List.concat_eq_append] at hpieces
  rw [follow, hpieces, List.foldlM_append] at h
  cases hmid : way.foldlM enter start with
  | error failure =>
    rw [hmid] at h
    cases h
  | ok mid =>
    rw [hmid] at h
    have hlast : enter mid piece = .ok (.file content, around) := by
      change [piece].foldlM enter mid = _ at h
      simpa only [List.foldlM_cons, List.foldlM_nil, bind_pure] using h
    rcases (enter_ok (enclosed_foldlM hstart hmid) hlast).2 with ⟨entries, hdir⟩ | ⟨n, hn⟩
    · cases hdir
    · refine ⟨n, ?_⟩
      rw [Path.components, hpieces, List.filterMap_append, ← List.append_assoc]
      simp [hn]

/-- What a path names is found by following it from some place. -/
theorem resolve_ok {disk : Disk} {p : Path} {node : Node} (h : disk.resolve p = .ok node) :
    ∃ start around, Enclosed start ∧ follow start p = .ok (node, around) := by
  have hroot : Enclosed (disk.root, []) := fun _ hnode => absurd hnode List.not_mem_nil
  have hplace {start : Node × List Node} (hstart : Enclosed start)
      (hfollow : (do let place ← follow start p; return place.1 : Except ReadFailure Node) =
        .ok node) : ∃ start around, Enclosed start ∧ follow start p = .ok (node, around) := by
    cases hp : follow start p with
    | error failure =>
      rw [hp] at hfollow
      cases hfollow
    | ok place =>
      rw [hp] at hfollow
      cases hfollow
      exact ⟨start, place.2, hstart, hp⟩
  unfold resolve at h
  by_cases hnul : p.text.toList.contains '\x00' = true
  · rw [if_pos hnul] at h
    cases h
  rw [if_neg hnul] at h
  by_cases hempty : p.text.isEmpty = true
  · rw [if_pos hempty] at h
    cases h
  rw [if_neg hempty] at h
  by_cases hlong : pathLimit < p.text.utf8ByteSize
  · rw [if_pos hlong] at h
    cases h
  rw [if_neg hlong] at h
  by_cases habs : p.isAbsolute = true
  · rw [if_pos habs] at h
    exact hplace hroot h
  · rw [if_neg habs] at h
    cases hcwd : follow (disk.root, []) disk.workingDirectory with
    | error failure =>
      rw [hcwd] at h
      cases h
    | ok start =>
      rw [hcwd] at h
      exact hplace (enclosed_foldlM hroot hcwd) h

/-- **Every path that names a file has a stem.** -/
theorem stem?_of_isFile {disk : Disk} {p : Path} (h : disk.isFile p = true) :
    ∃ stem, p.stem? = some stem := by
  unfold isFile at h
  split at h
  case h_1 content hresolve =>
    obtain ⟨start, around, hstart, hfollow⟩ := resolve_ok hresolve
    obtain ⟨n, hn⟩ := follow_file hstart hfollow
    exact ⟨_, by rw [Path.stem?, hn]⟩
  case h_2 => cases h

end Disk
end ScriptBackend

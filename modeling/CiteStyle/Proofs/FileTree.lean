import CiteStyle.FileTree

/-! # Files of a tree

A file that is written holds what was written, and nothing else in the tree is different
(`written_of_write`): no directory comes into being on the way, as all of them must be there
already. The question whether there is a file has no answer only where a name or the path itself is
too long (`long_of_isFile_eq_error`). -/

namespace CiteStyle.FileTree

variable {t after : FileTree} {names other : List String} {entry : FileEntry}

/-! ## Entries -/

theorem isSome_of_isDirectory (h : t.isDirectory (.inside names) = true) :
    (t.at? names).isSome = true := by
  rw [eq_of_beq h]
  rfl

variable {p : Path} {e : FileError}

@[simp] theorem isFile_eq_ok_true_iff : t.isFile p = .ok true ↔ ∃ bytes, t.read p = .ok bytes := by
  unfold isFile
  cases t.read p with
  | ok bytes => simp
  | error e => cases e <;> simp

/-- The question has no answer for one reason only. -/
theorem isFile_eq_error_iff :
    t.isFile p = .error e ↔ e = .nameTooLong ∧ t.read p = .error .nameTooLong := by
  unfold isFile
  cases t.read p with
  | ok bytes => simp
  | error e' => cases e' <;> simp [eq_comm]

theorem exists_long_of_follow {path : List String} {start : FilePlace}
    (h : t.follow start path = .error .nameTooLong) : ∃ name ∈ path, maxName < name.utf8ByteSize := by
  induction path generalizing start with
  | nil => cases h
  | cons name rest ih =>
    rw [follow] at h
    split at h
    · cases h
    · split at h
      · cases h
      · split at h
        · next henter =>
          rw [Except.error.inj h] at henter
          unfold enter at henter
          split at henter
          · cases henter
          · split at henter
            · next hlong => exact ⟨name, List.mem_cons_self, hlong⟩
            · cases start <;> cases henter
        · obtain ⟨long, hin, hlong⟩ := ih h
          exact ⟨long, List.mem_cons_of_mem _ hin, hlong⟩

theorem read_eq_nameTooLong_iff : t.read p = .error .nameTooLong ↔
    p.hasNull = false ∧ t.lookUp p = .error .nameTooLong := by
  unfold read
  cases p.hasNull with
  | true => simp
  | false =>
    rcases t.lookUp p with e | _ | bytes
    · simp
    · simp
    · simp

theorem lookUp_eq_nameTooLong_iff (hk : t.known.lookup p = none) :
    t.lookUp p = .error .nameTooLong ↔ t.resolve p = .error .nameTooLong := by
  unfold lookUp
  rw [hk]
  rcases t.resolve p with e | names | _
  · simp
  · dsimp only
    cases t.at? names <;> simp
  · simp

/-- Only of a path that is too long, or has a name that is, can it not be said. -/
theorem long_of_isFile_eq_error (h : t.isFile p = .error e) (hk : t.known.lookup p = none) :
    maxPath < p.toString.utf8ByteSize ∨ ∃ name ∈ p.names, maxName < name.utf8ByteSize := by
  obtain ⟨-, hread⟩ := isFile_eq_error_iff.mp h
  have hresolve := (lookUp_eq_nameTooLong_iff hk).mp (read_eq_nameTooLong_iff.mp hread).2
  unfold resolve at hresolve
  split at hresolve
  · next hlong => exact .inl hlong
  · exact .inr (exists_long_of_follow hresolve)

/-- A path from the directory of the tree whose first name is too long. -/
theorem isFile_of_long_name {name : String} {rest : List String}
    (hlong : maxName < name.utf8ByteSize) (hn : Path.hasNull ⟨"", name :: rest⟩ = false)
    (hroot : t.isDirectory (.inside []) = true) (hk : t.known.lookup ⟨"", name :: rest⟩ = none) :
    t.isFile ⟨"", name :: rest⟩ = .error .nameTooLong := by
  have hresolve : t.resolve ⟨"", name :: rest⟩ = .error .nameTooLong := by
    have hup : name ≠ ".." := fun h => absurd (h ▸ hlong) (by decide)
    unfold resolve
    split
    · rfl
    · show t.follow (.inside []) (name :: rest) = _
      have hexists : t.exists? (.inside []) = true := isSome_of_isDirectory hroot
      rw [follow, hexists, hroot, enter, if_neg hup, if_pos hlong]
      rfl
  refine isFile_eq_error_iff.mpr ⟨rfl, read_eq_nameTooLong_iff.mpr ⟨hn, ?_⟩⟩
  exact (lookUp_eq_nameTooLong_iff hk).mpr hresolve

end CiteStyle.FileTree

namespace CiteStyle.Path

theorem split_of_not_mem {s : List Char} (h : '/' ∉ s) : split s = [s] := by
  induction s with
  | nil => rfl
  | cons c rest ih =>
    rw [List.mem_cons, not_or] at h
    unfold split
    split
    · next heq => cases heq
    · next heq => exact absurd (List.cons.inj heq).1.symm h.1
    · next heq =>
      obtain ⟨rfl, rfl⟩ := List.cons.inj heq
      rw [ih h.2]

/-- A text without slashes is the path of a single name. -/
theorem ofString_of_name {s : String} (hs : '/' ∉ s.toList) (he : s.toList ≠ [])
    (hd : s.toList ≠ ['.']) : ofString s = ⟨"", [s]⟩ := by
  have hroot : rootOf s.toList = "" := by
    have hnone : s.toList.takeWhile (· == '/') = [] := by
      cases hl : s.toList with
      | nil => rfl
      | cons c rest =>
        rw [List.takeWhile_cons_of_neg]
        intro hc
        exact hs (hl ▸ eq_of_beq hc ▸ List.mem_cons_self)
    rw [rootOf, hnone]
    rfl
  rw [ofString, hroot, split_of_not_mem hs]
  simp [he, hd]

end CiteStyle.Path

namespace CiteStyle

def overlongName : String := String.ofList (List.replicate 256 'x')

theorem toList_overlongName : overlongName.toList = List.replicate 256 'x' := String.toList_ofList

theorem mem_overlongName {c : Char} (h : c ∈ overlongName.toList) : c = 'x' :=
  List.eq_of_mem_replicate (toList_overlongName ▸ h)

theorem ofString_overlongName : Path.ofString overlongName = ⟨"", [overlongName]⟩ := by
  have hlength : overlongName.toList.length = 256 :=
    (congrArg List.length toList_overlongName).trans List.length_replicate
  refine Path.ofString_of_name (fun h => absurd (mem_overlongName h) (by decide)) ?_ ?_
  · intro h
    rw [h] at hlength
    cases hlength
  · intro h
    exact absurd (mem_overlongName (h ▸ List.mem_singleton_self '.')) (by decide)

theorem isFile_overlongName {t : FileTree} {rest : List String}
    (hn : (rest.any fun name => name.toList.contains '\x00') = false)
    (hroot : t.isDirectory (.inside []) = true) (hk : t.known = []) :
    t.isFile ⟨"", overlongName :: rest⟩ = .error .nameTooLong := by
  have hlong : overlongName.toList.contains '\x00' = false := by
    refine Bool.eq_false_iff.mpr fun h => ?_
    exact absurd (mem_overlongName (List.contains_iff_mem.mp h)) (by decide)
  have hnull : Path.hasNull ⟨"", overlongName :: rest⟩ = false := by
    rw [Path.hasNull, List.any_cons, hlong, hn]
    rfl
  exact FileTree.isFile_of_long_name (by decide +kernel) hnull hroot (by rw [hk]; rfl)

end CiteStyle

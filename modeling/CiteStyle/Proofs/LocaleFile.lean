import CiteStyle.Library
import CiteStyle.Proofs.FileTree
import Mathlib.Data.List.Basic

/-! # Finding the file of a locale

The search goes directory by directory (`findLocaleFile_cons`): each is asked for the file of the
tag and then for that of the main region. It finds what a search for the tag in all directories
would find, unless a file of the main region comes before it, and it breaks off where a directory
cannot be asked, although a later one may have the file (`findLocaleFile_by_directory`). -/

namespace CiteStyle

/-! ## Asking one path after another -/

namespace FileTree

variable {t : FileTree}

theorem findFile_append (paths more : List Path) : t.findFile (paths ++ more) =
    match t.findFile paths with
    | .ok none => t.findFile more
    | found => found := by
  induction paths with
  | nil => rfl
  | cons p rest ih =>
    rw [List.cons_append, findFile, findFile]
    split
    · rfl
    · rfl
    · exact ih

/-- To ask for the same path again makes no difference. -/
theorem findFile_pair_self (p : Path) : t.findFile [p, p] = t.findFile [p] := by
  simp only [findFile]
  split <;> rfl

def hasFile (t : FileTree) (p : Path) : Bool := (t.read p).toBool

theorem hasFile_iff {p : Path} : t.hasFile p = true ↔ t.isFile p = .ok true := by
  rw [isFile_eq_ok_true_iff, hasFile]
  cases t.read p <;> simp [Except.toBool]

end FileTree

/-! ## The files of a directory -/

def localeFile (tag : String) (d : Path) : Path := d.join (.ofString ("locales-" ++ tag ++ ".xml"))

def exactFile (lang : String) : Path → Path := localeFile (Language.normalize lang)

/-- The file for the main region of the language, in a directory. -/
def mainFile (lang : String) : Path → Path :=
  localeFile (Language.extend (Language.primarySubtag lang))

variable (t : FileTree) (lang : String)

/-- The first file for exactly the language, and if no directory has one, the first for its main
region. -/
def exactFirst (directories : List Path) : Option Path :=
  ((directories.map (exactFile lang)).find? t.hasFile).or
    ((directories.map (mainFile lang)).find? t.hasFile)

/-- A directory with the file for the main region comes before the first that has the file for
exactly the language. -/
inductive MainComesFirst : List Path → Prop
  | here {d : Path} {rest : List Path} (h : t.isFile (exactFile lang d) = .ok false)
      (hm : t.isFile (mainFile lang d) = .ok true)
      (hr : ∃ e ∈ rest, t.isFile (exactFile lang e) = .ok true) : MainComesFirst (d :: rest)
  | later {d : Path} {rest : List Path} (h : t.isFile (exactFile lang d) = .ok false)
      (hr : MainComesFirst rest) : MainComesFirst (d :: rest)

/-- A directory that cannot be asked for one of its files, since its path gets too long, comes
before the first that has either. -/
inductive BreaksOff : List Path → Prop
  | exact {d : Path} {rest : List Path} (h : t.isFile (exactFile lang d) = .error .nameTooLong) :
      BreaksOff (d :: rest)
  | main {d : Path} {rest : List Path} (h : t.isFile (exactFile lang d) = .ok false)
      (hm : t.isFile (mainFile lang d) = .error .nameTooLong) : BreaksOff (d :: rest)
  | later {d : Path} {rest : List Path} (h : t.isFile (exactFile lang d) = .ok false)
      (hm : t.isFile (mainFile lang d) = .ok false) (hr : BreaksOff rest) : BreaksOff (d :: rest)

theorem findFile_localeFileNames (d : Path) :
    t.findFile ((localeFileNames lang).map fun name => d.join (.ofString name)) =
      t.findFile [exactFile lang d, mainFile lang d] := by
  unfold localeFileNames exactFile mainFile localeFile
  dsimp only
  split
  · next hsame =>
    rw [hsame, t.findFile_pair_self]
    rfl
  · rfl

/-- The search, one directory at a time. -/
theorem findLocaleFile_cons (d : Path) (rest : List Path) :
    findLocaleFile t lang (d :: rest) =
      match t.isFile (exactFile lang d), t.isFile (mainFile lang d) with
      | .error e, _ => .error e
      | .ok true, _ => .ok (some (exactFile lang d))
      | .ok false, .error e => .error e
      | .ok false, .ok true => .ok (some (mainFile lang d))
      | .ok false, .ok false => findLocaleFile t lang rest := by
  rw [findLocaleFile, List.flatMap_cons, FileTree.findFile_append, findFile_localeFileNames]
  simp only [FileTree.findFile]
  rcases t.isFile (exactFile lang d) with e | _ | _
  · rfl
  · rcases t.isFile (mainFile lang d) with e | _ | _ <;> rfl
  · rfl

variable {t lang} {directories : List Path}

theorem findLocaleFile_eq_none_iff :
    findLocaleFile t lang directories = .ok none ↔ ∀ d ∈ directories,
      t.isFile (exactFile lang d) = .ok false ∧ t.isFile (mainFile lang d) = .ok false := by
  induction directories with
  | nil => exact iff_of_true rfl (List.forall_mem_nil _)
  | cons d rest ih =>
    rw [findLocaleFile_cons, List.forall_mem_cons, ← ih]
    rcases t.isFile (exactFile lang d) with e | _ | _ <;>
      rcases t.isFile (mainFile lang d) with e' | _ | _ <;> simp

theorem findLocaleFile_eq_error_iff {e : FileError} : findLocaleFile t lang directories = .error e ↔
    e = .nameTooLong ∧ BreaksOff t lang directories := by
  constructor
  · intro h
    induction directories with
    | nil => cases h
    | cons d rest ih =>
      rw [findLocaleFile_cons] at h
      split at h
      · next hexact =>
        obtain rfl := Except.error.inj h
        obtain ⟨rfl, -⟩ := FileTree.isFile_eq_error_iff.mp hexact
        exact ⟨rfl, .exact hexact⟩
      · cases h
      · next hexact hmain =>
        obtain rfl := Except.error.inj h
        obtain ⟨rfl, -⟩ := FileTree.isFile_eq_error_iff.mp hmain
        exact ⟨rfl, .main hexact hmain⟩
      · cases h
      · next hexact hmain =>
        obtain ⟨rfl, hrest⟩ := ih h
        exact ⟨rfl, .later hexact hmain hrest⟩
  · rintro ⟨rfl, hbreaks⟩
    induction hbreaks with
    | exact h => rw [findLocaleFile_cons, h]
    | main h hm => rw [findLocaleFile_cons, h, hm]
    | later h hm _ ih => rw [findLocaleFile_cons, h, hm, ih]

/-! ## Against a search for the tag in all directories -/

theorem hasFile_eq_false {p : Path} (h : t.isFile p = .ok false) : t.hasFile p = false := by
  rw [Bool.eq_false_iff, ne_eq, FileTree.hasFile_iff, h]
  simp

theorem exactFile_of_not_mainComesFirst {d : Path} {rest : List Path}
    (h : ¬ MainComesFirst t lang (d :: rest)) (he : t.isFile (exactFile lang d) = .ok false)
    (hm : t.isFile (mainFile lang d) = .ok true) :
    (rest.map (exactFile lang)).find? t.hasFile = none := by
  rw [List.find?_eq_none]
  intro p hp hfile
  obtain ⟨e, hin, rfl⟩ := List.mem_map.mp hp
  exact h (.here he hm ⟨e, hin, FileTree.hasFile_iff.mp hfile⟩)

theorem findLocaleFile_eq_exactFirst {found : Option Path} (h : ¬ MainComesFirst t lang directories)
    (hf : findLocaleFile t lang directories = .ok found) :
    found = exactFirst t lang directories := by
  induction directories with
  | nil => exact (Except.ok.inj hf).symm
  | cons d rest ih =>
    rw [findLocaleFile_cons] at hf
    rw [exactFirst, List.map_cons, List.map_cons]
    split at hf
    · cases hf
    · next he =>
      rw [List.find?_cons_of_pos (FileTree.hasFile_iff.mpr he), Option.some_or]
      exact (Except.ok.inj hf).symm
    · cases hf
    · next he hm =>
      rw [List.find?_cons_of_neg (by rw [hasFile_eq_false he]; exact Bool.false_ne_true),
        List.find?_cons_of_pos (FileTree.hasFile_iff.mpr hm),
        exactFile_of_not_mainComesFirst h he hm, Option.none_or]
      exact (Except.ok.inj hf).symm
    · next he hm =>
      rw [List.find?_cons_of_neg (by rw [hasFile_eq_false he]; exact Bool.false_ne_true),
        List.find?_cons_of_neg (by rw [hasFile_eq_false hm]; exact Bool.false_ne_true)]
      exact ih (fun hr => h (.later he hr)) hf

theorem MainComesFirst.eq_mainFile {found : Option Path} (h : MainComesFirst t lang directories)
    (hf : findLocaleFile t lang directories = .ok found) :
    found = (directories.map (mainFile lang)).find? t.hasFile := by
  induction h with
  | here he hm _ =>
    rw [findLocaleFile_cons, he, hm] at hf
    rw [List.map_cons, List.find?_cons_of_pos (FileTree.hasFile_iff.mpr hm)]
    exact (Except.ok.inj hf).symm
  | @later d rest he _ ih =>
    rw [findLocaleFile_cons, he] at hf
    rw [List.map_cons]
    cases hm : t.isFile (mainFile lang d) with
    | error e => rw [hm] at hf; cases hf
    | ok there =>
      rw [hm] at hf
      cases there with
      | true =>
        rw [List.find?_cons_of_pos (FileTree.hasFile_iff.mpr hm)]
        exact (Except.ok.inj hf).symm
      | false =>
        rw [List.find?_cons_of_neg (by rw [hasFile_eq_false hm]; exact Bool.false_ne_true)]
        exact ih hf

theorem MainComesFirst.exists_exactFile (h : MainComesFirst t lang directories) :
    ∃ d ∈ directories, t.isFile (exactFile lang d) = .ok true := by
  induction h with
  | here _ _ hr =>
    obtain ⟨e, hin, he⟩ := hr
    exact ⟨e, List.mem_cons_of_mem _ hin, he⟩
  | later _ _ ih =>
    obtain ⟨e, hin, he⟩ := ih
    exact ⟨e, List.mem_cons_of_mem _ hin, he⟩

variable (t lang directories)

/-- **The exact file is preferred within a directory only.** Nothing is found if no directory has
either file. The search breaks off, without a result, at a directory where the path of a file gets
too long. If it has a result, this is the first file for exactly the language, or without any the
first for its main region, unless a directory with a file for the main region comes before the first
that has one for exactly the language. Then it is the first file for the main region, although there
is another one for exactly the language. -/
theorem findLocaleFile_by_directory :
    (findLocaleFile t lang directories = .ok none ↔ ∀ d ∈ directories,
      t.isFile (exactFile lang d) = .ok false ∧ t.isFile (mainFile lang d) = .ok false) ∧
    (∀ e, findLocaleFile t lang directories = .error e ↔
      e = .nameTooLong ∧ BreaksOff t lang directories) ∧
    ∀ found, findLocaleFile t lang directories = .ok found →
      (¬ MainComesFirst t lang directories → found = exactFirst t lang directories) ∧
      (MainComesFirst t lang directories →
        found = (directories.map (mainFile lang)).find? t.hasFile ∧
        ∃ d ∈ directories, t.isFile (exactFile lang d) = .ok true) :=
  ⟨findLocaleFile_eq_none_iff, fun _ => findLocaleFile_eq_error_iff, fun _ hf =>
    ⟨fun h => findLocaleFile_eq_exactFirst h hf, fun h => ⟨h.eq_mainFile hf, h.exists_exactFile⟩⟩⟩

def englishLocales : FileTree where
  entries := [(["a", "locales-en-US.xml"], .file []), (["b", "locales-en-GB.xml"], .file [])]

theorem breaksOff_overlongName {name : String} {rest : List Path}
    (hfile : Path.ofString ("locales-" ++ Language.normalize lang ++ ".xml") = ⟨"", [name]⟩)
    (hn : name.toList.contains '\x00' = false) (hroot : t.isDirectory (.inside []) = true)
    (hk : t.known = []) : BreaksOff t lang (.ofString overlongName :: rest) := by
  have hnull : ([name].any fun n => n.toList.contains '\x00') = false := by
    rw [List.any_cons, hn]
    rfl
  refine .exact ?_
  rw [exactFile, localeFile, hfile, ofString_overlongName]
  exact isFile_overlongName hnull hroot hk

theorem britishEnglish_by_directory :
    findLocaleFile englishLocales "en-GB" [.ofString "a", .ofString "b"] =
        .ok (some (.ofString "a/locales-en-US.xml")) ∧
      exactFirst englishLocales "en-GB" [.ofString "a", .ofString "b"] =
        some (.ofString "b/locales-en-GB.xml") ∧
      findLocaleFile englishLocales "en-GB" [.ofString "b", .ofString "a"] =
        .ok (exactFirst englishLocales "en-GB" [.ofString "b", .ofString "a"]) ∧
      findLocaleFile englishLocales "en-GB" [.ofString overlongName, .ofString "b"] =
        .error .nameTooLong := by
  have hmain : MainComesFirst englishLocales "en-GB" [.ofString "a", .ofString "b"] :=
    .here (by decide +kernel) (by decide +kernel)
      ⟨.ofString "b", List.mem_singleton_self _, by decide +kernel⟩
  have hexact : ¬ MainComesFirst englishLocales "en-GB" [.ofString "b", .ofString "a"] := by
    intro h
    have he : englishLocales.isFile (exactFile "en-GB" (.ofString "b")) = .ok true := by
      decide +kernel
    cases h with
    | here h => rw [he] at h; cases h
    | later h => rw [he] at h; cases h
  have hfile : Path.ofString ("locales-" ++ Language.normalize "en-GB" ++ ".xml") =
      ⟨"", ["locales-en-GB.xml"]⟩ := by decide +kernel
  have hbreaks : BreaksOff englishLocales "en-GB" [.ofString overlongName, .ofString "b"] :=
    breaksOff_overlongName _ _ hfile (by decide +kernel) (by decide +kernel) rfl
  obtain ⟨-, -, hab⟩ :=
    findLocaleFile_by_directory englishLocales "en-GB" [.ofString "a", .ofString "b"]
  obtain ⟨-, -, hba⟩ :=
    findLocaleFile_by_directory englishLocales "en-GB" [.ofString "b", .ofString "a"]
  obtain ⟨-, hlong, -⟩ :=
    findLocaleFile_by_directory englishLocales "en-GB" [.ofString overlongName, .ofString "b"]
  obtain ⟨first, hfirst⟩ := exists_ok_of_toBool
    (x := findLocaleFile englishLocales "en-GB" [.ofString "a", .ofString "b"]) (by decide +kernel)
  obtain ⟨second, hsecond⟩ := exists_ok_of_toBool
    (x := findLocaleFile englishLocales "en-GB" [.ofString "b", .ofString "a"]) (by decide +kernel)
  have hmainFirst := ((hab first hfirst).2 hmain).1
  refine ⟨?_, by decide +kernel, ?_, (hlong _).mpr ⟨rfl, hbreaks⟩⟩
  · rw [hfirst, hmainFirst]
    decide +kernel
  · rw [hsecond, (hba second hsecond).1 hexact]

end CiteStyle

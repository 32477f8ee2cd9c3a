import KingCheck.Proofs.Text.Lines
import KingCheck.Session.Filesystem

/-!
# Paths of a session's files

A path may lead to a file of the session's own, or nowhere, and then it does so whatever standard
input brings.  A name without slashes leads to the file of that name, if there is one, and nowhere
if there is none: nothing else lies in the directory of a session, and no location there stands for
another.
-/
namespace KingCheck.Session

open Text (Octets)
open Input (Reader)

/-- The string names a file in the directory where it is looked up. -/
structure IsFileName (name : String) : Prop where
  nonempty : name ≠ ""
  noSlash : '/' ∉ name.toList
  notDot : name.toList ≠ ['.']
  notDots : name.toList ≠ ['.', '.']
  size_le : (Text.octets name).length ≤ maxNameSize

instance (name : String) : Decidable (IsFileName name) :=
  decidable_of_iff
    (name ≠ "" ∧ '/' ∉ name.toList ∧ name.toList ≠ ['.'] ∧ name.toList ≠ ['.', '.'] ∧
      (Text.octets name).length ≤ maxNameSize)
    ⟨fun ⟨h₁, h₂, h₃, h₄, h₅⟩ => ⟨h₁, h₂, h₃, h₄, h₅⟩,
      fun ⟨h₁, h₂, h₃, h₄, h₅⟩ => ⟨h₁, h₂, h₃, h₄, h₅⟩⟩

/-- Among the files of a session, a path leads to a file with these octets. -/
def LeadsTo (files : List (String × Octets)) (path : String) (bytes : Octets) : Prop :=
  ∀ stdin, (Filesystem.around stdin files).resolve path = .ok (.file (Reader.ofOctets bytes))

/-- Among the files of a session, a path leads nowhere. -/
def LeadsNowhere (files : List (String × Octets)) (path : String) : Prop :=
  ∃ e, ∀ stdin, (Filesystem.around stdin files).resolve path = .error e

variable {files : List (String × Octets)} {name path : String} {bytes : Octets} {stdin : Reader}

theorem LeadsTo.openFile_eq (h : LeadsTo files path bytes) (stdin : Reader) :
    (Filesystem.around stdin files).openFile path = .ok (Reader.ofOctets bytes) := by
  rw [Filesystem.openFile, h stdin]

theorem LeadsNowhere.openFile_eq (h : LeadsNowhere files path) :
    ∃ text, ∀ stdin, (Filesystem.around stdin files).openFile path = .error text := by
  obtain ⟨e, he⟩ := h
  refine ⟨e.text, fun stdin => ?_⟩
  rw [Filesystem.openFile, he stdin]

namespace IsFileName

theorem toList_ne_nil (h : IsFileName name) : name.toList ≠ [] := by
  simpa using h.nonempty

/-- A file in the directory of a session is found under its name. -/
theorem ofString_eq (h : IsFileName name) : Location.ofString name = [name.toList] :=
  Text.pieces_of_not_mem '/' h.noSlash h.toList_ne_nil

/-- To follow a file name is to look for it in the directory of a session. -/
theorem resolve_eq (h : IsFileName name) (system : Filesystem) :
    system.resolve name = system.find (Location.workdir ++ [name.toList]) := by
  have hsize : ¬ maxPathSize < (Text.octets name).length :=
    Nat.not_lt.2 (Nat.le_trans h.size_le (by decide))
  have hname : ¬ maxNameSize < (Text.encode name.toList).length := Nat.not_lt.2 h.size_le
  have hhead : name.toList.head? ≠ some '/' := fun hslash =>
    h.noSlash (List.mem_of_mem_head? hslash)
  have hpieces : Text.pieces '/' (name.toList ++ ['/']) = [name.toList] :=
    Text.pieces_append_sep '/' h.noSlash []
  rw [Filesystem.resolve, if_neg h.nonempty, if_neg hsize]
  simp only [hhead, if_false, hpieces, Filesystem.follow, Filesystem.enter, h.toList_ne_nil,
    h.notDot, h.notDots, hname, or_self]
  cases system.find (Location.workdir ++ [name.toList]) <;> rfl

end IsFileName

namespace Filesystem

/-- What lies outside the directory of a session is none of its files. -/
theorem beq_eq_false_of_outside (location : Location) (h : ¬ Location.workdir <+: location)
    (name : FileName) : (Location.workdir ++ [name] == location) = false := by
  rw [beq_eq_false_iff_ne]
  rintro rfl
  exact h (List.prefix_append _ _)

/-- No location in the directory of a session stands for another. -/
theorem lookup_links_workdir (name : FileName) :
    (around stdin files).links.lookup (Location.workdir ++ [name]) = none := by
  have houtside : ∀ link ∈ (around [] []).links, ¬ Location.workdir <+: link.1 := by decide
  rw [List.lookup_eq_none_iff]
  intro link hlink
  rw [bne, beq_eq_false_of_outside _ (houtside link hlink) name]
  rfl

/-- No directory lies in the directory of a session, unless on the way to a file. -/
theorem workdir_append_notMem_directories (name : FileName) :
    Location.workdir ++ [name] ∉ (around stdin files).directories := by
  have hlength : ∀ directory ∈ (around [] []).directories, directory.length < 3 := by decide
  intro hmem
  have hthree : (Location.workdir ++ [name]).length = 3 := by
    rw [List.length_append]
    rfl
  exact absurd (hlength _ hmem) (by rw [hthree]; decide)

/-- The files of a session are found under their names. -/
theorem lookup_files_workdir (hfiles : ∀ file ∈ files, IsFileName file.1) (name : String) :
    (around stdin files).files.lookup (Location.workdir ++ [name.toList]) =
      (files.lookup name).map Reader.ofOctets := by
  have hnull := beq_eq_false_of_outside (.ofString "dev/null") (by decide) name.toList
  have hstdin :=
    beq_eq_false_of_outside (.ofString "proc/self/fd/0") (by decide) name.toList
  simp only [around, List.lookup_cons, hnull, hstdin]
  induction files with
  | nil => rfl
  | cons file files ih =>
    obtain ⟨first, bytes⟩ := file
    have hsame :
        (Location.workdir ++ [name.toList] == Location.workdir ++ Location.ofString first) =
          (name == first) := by
      rw [(hfiles _ List.mem_cons_self).ofString_eq, Bool.eq_iff_iff]
      simp [← String.toList_inj]
    rw [List.map_cons, List.lookup_cons, hsame, List.lookup_cons,
      ih fun file hfile => hfiles file (List.mem_cons_of_mem _ hfile)]
    cases name == first <;> rfl

/-- Nothing lies behind a name that no file has. -/
theorem not_prefix_of_lookup_eq_none (hfiles : ∀ file ∈ files, IsFileName file.1)
    (h : files.lookup name = none) {file : Location × Reader}
    (hfile : file ∈ (around stdin files).files) :
    ¬ Location.workdir ++ [name.toList] <+: file.1 := by
  have houtside : ¬ Location.workdir <+: Location.ofString "dev/null" ∧
      ¬ Location.workdir <+: Location.ofString "proc/self/fd/0" := by decide
  simp only [around, List.mem_cons, List.mem_map] at hfile
  intro hprefix
  have hworkdir := (List.prefix_append _ _).trans hprefix
  obtain rfl | rfl | ⟨⟨first, bytes⟩, hmem, rfl⟩ := hfile
  · exact houtside.1 hworkdir
  · exact houtside.2 hworkdir
  · simp only [(hfiles _ hmem).ofString_eq, List.prefix_append_right_inj] at hprefix
    obtain rfl : name = first := by simpa [String.toList_inj] using hprefix
    have hne := List.lookup_eq_none_iff.1 h _ hmem
    simp at hne

theorem find_of_lookup_eq_some (hfiles : ∀ file ∈ files, IsFileName file.1)
    (h : files.lookup name = some bytes) :
    (around stdin files).find (Location.workdir ++ [name.toList]) =
      .ok (.file (Reader.ofOctets bytes)) := by
  rw [find, lookup_links_workdir, Option.getD_none, lookup_files_workdir hfiles, h, Option.map_some]

theorem find_of_lookup_eq_none (hfiles : ∀ file ∈ files, IsFileName file.1)
    (h : files.lookup name = none) :
    (around stdin files).find (Location.workdir ++ [name.toList]) = .error .notFound := by
  have hnothing : ¬ ((Location.workdir ++ [name.toList] ∈ (around stdin files).directories) ∨
      ((around stdin files).files.any fun file =>
        (Location.workdir ++ [name.toList]).isPrefixOf file.1) = true) := by
    rw [not_or, List.any_eq_true]
    refine ⟨workdir_append_notMem_directories _, ?_⟩
    rintro ⟨file, hfile, hprefix⟩
    exact not_prefix_of_lookup_eq_none hfiles h hfile (List.isPrefixOf_iff_prefix.1 hprefix)
  rw [find, lookup_links_workdir, Option.getD_none, lookup_files_workdir hfiles, h, Option.map_none]
  exact if_neg hnothing

end Filesystem

/-- **The name of a file leads to it.** -/
theorem leadsTo_of_lookup (hfiles : ∀ file ∈ files, IsFileName file.1) (hname : IsFileName name)
    (h : files.lookup name = some bytes) : LeadsTo files name bytes := by
  intro stdin
  rw [hname.resolve_eq, Filesystem.find_of_lookup_eq_some hfiles h]

/-- **The name of no file leads nowhere.** -/
theorem leadsNowhere_of_lookup (hfiles : ∀ file ∈ files, IsFileName file.1)
    (hname : IsFileName name) (h : files.lookup name = none) : LeadsNowhere files name := by
  refine ⟨.notFound, fun stdin => ?_⟩
  rw [hname.resolve_eq, Filesystem.find_of_lookup_eq_none hfiles h]

end KingCheck.Session

import Mathlib.Data.List.TakeWhile
import TestActor.Disk
import TestActor.Proofs.PathWalk

/-!
# Names in the text of a path

Parents and file names are taken from the text of a path, while following a path goes along its
names. What is left out of the text at the end, slashes and single dots, leads nowhere else, so the
file name is the last name that leads on. The temporary file of a path has another name, or it is
below the path, and so it is never at the same place.

## Main statements

* `FileSystem.denoted_join`: where a joined path leads.
* `FileSystem.denoted_of_fileName`: a path leads to its file name, below its parent.
* `FileSystem.denoted_temporary_of_fileName`: the temporary file is beside the file.
* `FileSystem.denoted_temporary_ne`: the temporary file is not at the place of the file.
-/

namespace TestActor

/-! ## Names between slashes -/

namespace Path

/-- The names in a text. -/
def namesIn (s : List Char) : List String :=
  ((splitSlash s).filter (!·.isEmpty)).map String.ofList

theorem splitSlash_ne_nil (s : List Char) : splitSlash s ≠ [] := by
  cases s with
  | nil => simp [splitSlash]
  | cons c r =>
    rw [splitSlash]
    split
    · simp
    · split <;> simp

theorem splitSlash_append_slash (s t : List Char) :
    splitSlash (s ++ '/' :: t) = splitSlash s ++ splitSlash t := by
  induction s with
  | nil => rfl
  | cons c r ih =>
    rw [List.cons_append, splitSlash, splitSlash, ih]
    split
    · rfl
    · obtain ⟨name, names, hr⟩ := List.exists_cons_of_ne_nil (splitSlash_ne_nil r)
      rw [hr]
      rfl

theorem splitSlash_of_not_mem {s : List Char} (h : '/' ∉ s) : splitSlash s = [s] := by
  induction s with
  | nil => rfl
  | cons c r ih =>
    obtain ⟨hc, hr⟩ := not_or.mp (mt List.mem_cons.mpr h)
    rw [splitSlash, if_neg (Ne.symm hc), ih hr]

theorem namesIn_append_slash (s t : List Char) :
    namesIn (s ++ '/' :: t) = namesIn s ++ namesIn t := by
  unfold namesIn
  rw [splitSlash_append_slash, List.filter_append, List.map_append]

theorem namesIn_of_not_mem {s : List Char} (hne : s ≠ []) (h : '/' ∉ s) :
    namesIn s = [String.ofList s] := by
  unfold namesIn
  rw [splitSlash_of_not_mem h, List.filter_cons_of_pos (by simpa using hne)]
  rfl

/-! ## What is left out at the end -/

/-- Behind what is left out at the end of a text stands a name, and it is no single dot. -/
theorem trimmedBack_shape (r : List Char) :
    (∀ t, trimmedBack r ≠ '/' :: t) ∧ trimmedBack r ≠ ['.'] ∧
      ∀ t, trimmedBack r ≠ '.' :: '/' :: t := by
  fun_induction trimmedBack r with
  | case1 => simp
  | case2 => simp
  | case3 r ih => exact ih
  | case4 r ih => exact ih
  | case5 r hnil hdot hslash hdotSlash => exact ⟨hslash, hdot, hdotSlash⟩

theorem trimmedBack_suffix (r : List Char) : trimmedBack r <:+ r := by
  fun_induction trimmedBack r with
  | case1 => exact List.suffix_refl []
  | case2 => exact List.nil_suffix
  | case3 r ih => exact ih.trans (List.suffix_cons _ r)
  | case4 r ih => exact (ih.trans (List.suffix_cons _ r)).trans (List.suffix_cons _ _)
  | case5 r => exact List.suffix_refl r

/-! ## The last name -/

/-- A text without its last name and the slash before it, both given from their end. -/
def backOfFront (back : List Char) : List Char :=
  (back.dropWhile (· != '/')).drop 1

theorem backOfFront_suffix (back : List Char) : backOfFront back <:+ back :=
  (List.drop_suffix 1 _).trans (List.dropWhile_suffix _)

/-- The names in a text that is given from its end: the last one stands behind all others. -/
theorem namesIn_reverse_eq {back : List Char} (hne : back.takeWhile (· != '/') ≠ []) :
    namesIn back.reverse
      = namesIn (backOfFront back).reverse
        ++ [String.ofList (back.takeWhile (· != '/')).reverse] := by
  have hname : '/' ∉ (back.takeWhile (· != '/')).reverse := by
    intro hmem
    have := List.mem_takeWhile_imp (List.mem_reverse.mp hmem)
    simp at this
  have hsplit : back.reverse
      = (back.dropWhile (· != '/')).reverse ++ (back.takeWhile (· != '/')).reverse := by
    rw [← List.reverse_append, List.takeWhile_append_dropWhile]
  rw [hsplit, backOfFront]
  cases hrest : back.dropWhile (· != '/') with
  | nil => exact namesIn_of_not_mem (by simpa using hne) hname
  | cons c r =>
    have hslash : c = '/' := by
      have := List.head_dropWhile_not (· != '/') (l := back) (by rw [hrest]; simp)
      simpa [hrest] using this
    rw [hslash, List.reverse_cons, List.append_assoc, List.singleton_append, namesIn_append_slash,
      namesIn_of_not_mem (by simpa using hne) hname]
    rfl

/-- A text that was trimmed at its end, and that is not empty, ends in a name. -/
theorem takeWhile_backOfBody_ne {s : List Char} (h : backOfBody s ≠ []) :
    (backOfBody s).takeWhile (· != '/') ≠ [] ∧
      ((backOfBody s).takeWhile (· != '/')).reverse ≠ ['.'] := by
  obtain ⟨hslash, hdot, hdotSlash⟩ := trimmedBack_shape (s.drop (anchorLength s)).reverse
  obtain ⟨c, r, hcr⟩ := List.exists_cons_of_ne_nil h
  have hc : c ≠ '/' := fun he => hslash r (he ▸ hcr)
  rw [hcr, List.takeWhile_cons_of_pos (by simpa using hc)]
  refine ⟨List.cons_ne_nil _ _, fun he => ?_⟩
  -- a single dot would stand alone or behind a slash
  have hone : c :: r.takeWhile (· != '/') = ['.'] := by
    rw [← List.reverse_reverse (c :: _), he]
    rfl
  obtain ⟨rfl, hr⟩ := List.cons.inj hone
  cases r with
  | nil => exact hdot hcr
  | cons d r =>
    have hd : d = '/' := by simpa [List.takeWhile_cons] using hr
    exact hdotSlash r (hd ▸ hcr)

/-! ## Parents -/

/-- The text of the parent of a path with these characters that has a file name. -/
def parentText (s : List Char) : List Char :=
  s.take (anchorLength s) ++ (trimmedBack (backOfFront (backOfBody s))).reverse

/-- A path with a file name has a parent. -/
theorem parent_of_backOfBody {path : Path} (h : backOfBody path.text.toList ≠ []) :
    path.parent = some ⟨String.ofList (parentText path.text.toList)⟩ := by
  unfold parent
  dsimp only
  split
  · next hnil => exact absurd hnil h
  · rfl

/-- What stands behind the anchor in the text of the parent stands there in the text itself. -/
theorem parentText_prefix_drop (s : List Char) :
    (trimmedBack (backOfFront (backOfBody s))).reverse <+: s.drop (anchorLength s) := by
  rw [← List.reverse_suffix, List.reverse_reverse]
  exact (trimmedBack_suffix _).trans ((backOfFront_suffix _).trans (trimmedBack_suffix _))

theorem parentText_prefix (s : List Char) : parentText s <+: s := by
  have hprefix := (List.prefix_append_right_inj (s.take (anchorLength s))).mpr
    (parentText_prefix_drop s)
  rwa [List.take_append_drop] at hprefix

/-- A parent begins where its path does. -/
theorem head?_parentText (s : List Char) :
    (parentText s).head? = some '/' ↔ s.head? = some '/' := by
  constructor
  · intro h
    obtain ⟨rest, hrest⟩ := parentText_prefix s
    rw [← hrest, List.head?_append, h]
    rfl
  · intro h
    obtain ⟨r, rfl⟩ := List.head?_eq_some_iff.mp h
    rfl

end Path

namespace FileSystem

open TestActor.Path

variable {fs : FileSystem} {path base right : Path} {place : Place} {name : String}

/-- What is left out at the end of a text leads nowhere else. -/
theorem foldl_along_trimmedBack (r : List Char) :
    (namesIn (trimmedBack r).reverse).foldl along place = (namesIn r.reverse).foldl along place := by
  fun_induction trimmedBack r with
  | case1 => rfl
  | case2 => rfl
  | case3 r ih =>
    rw [ih, List.reverse_cons, namesIn_append_slash]
    exact congrArg (List.foldl along place) (List.append_nil _).symm
  | case4 r ih =>
    have hsplit : ('.' :: '/' :: r).reverse = r.reverse ++ '/' :: ['.'] := by simp
    rw [ih, hsplit, namesIn_append_slash, List.foldl_append]
    rfl
  | case5 => rfl

/-- The beginning of a path, a slash or a single dot, leads nowhere else. -/
theorem foldl_along_drop_anchor (s : List Char) :
    (namesIn (s.drop (anchorLength s))).foldl along place = (namesIn s).foldl along place := by
  unfold anchorLength
  split
  · rfl
  · rfl
  · rfl
  · rfl

theorem foldl_along_backOfBody (path : Path) :
    (namesIn (backOfBody path.text.toList).reverse).foldl along place
      = path.names.foldl along place := by
  unfold backOfBody
  rw [foldl_along_trimmedBack, List.reverse_reverse, foldl_along_drop_anchor]
  rfl

/-! ## File names -/

/-- A name that is no dots leads to a place of that name. -/
theorem along_of_ne (hdot : name ≠ ".") (hdots : name ≠ "..") : along place name = name :: place := by
  rw [along, if_neg hdot, if_neg hdots]

/-- The names in the text of the parent lead where the names before the last one do. -/
theorem foldl_along_parentText (s : List Char) :
    (namesIn (parentText s)).foldl along place
      = (namesIn (backOfFront (backOfBody s)).reverse).foldl along place := by
  rw [← foldl_along_trimmedBack (backOfFront (backOfBody s)), parentText]
  have hprefix := parentText_prefix_drop s
  generalize (trimmedBack (backOfFront (backOfBody s))).reverse = rest at hprefix ⊢
  -- the beginning leads nowhere else, as it is a slash or a single dot before one
  unfold anchorLength at hprefix ⊢
  split
  · rfl
  · obtain rfl := List.prefix_nil.mp hprefix
    rfl
  · rcases List.prefix_cons_iff.mp hprefix with rfl | ⟨t, rfl, -⟩
    · rfl
    · rfl
  · rfl

theorem start_parentText (path : Path) :
    fs.start ⟨String.ofList (parentText path.text.toList)⟩ = fs.start path := by
  unfold start isAbsolute
  rw [String.toList_ofList]
  simp only [beq_iff_eq, head?_parentText]

/-- **A path leads to its file name**, which is below its parent. -/
theorem denoted_of_fileName (h : path.fileName = some name) :
    ∃ parent, path.parent = some parent ∧ fs.denoted path = name :: fs.denoted parent := by
  unfold fileName at h
  split at h
  · cases h
  · next hback =>
    dsimp only at h
    split at h
    · cases h
    · next hdots =>
      rw [← Option.some.inj h]
      obtain ⟨hne, hdot⟩ := takeWhile_backOfBody_ne hback
      refine ⟨_, parent_of_backOfBody hback, ?_⟩
      have hparent : fs.denoted ⟨String.ofList (parentText path.text.toList)⟩
          = (namesIn (parentText path.text.toList)).foldl along (fs.start path) := by
        rw [denoted, start_parentText, names, String.toList_ofList]
        rfl
      rw [hparent, foldl_along_parentText, denoted, ← foldl_along_backOfBody,
        namesIn_reverse_eq hne, List.foldl_append, List.foldl_cons, List.foldl_nil,
        along_of_ne (fun he => hdot (String.ofList_injective he))
          fun he => hdots (String.ofList_injective he)]

/-! ## Joined paths -/

theorem isAbsolute_join (hright : right.isAbsolute = false) :
    (base.join right).isAbsolute = base.isAbsolute := by
  have hempty : base.text.toList = [] → base.isAbsolute = false := by
    intro h
    rw [isAbsolute, h]
    rfl
  unfold join
  rw [if_neg (by simp [hright])]
  split
  · cases hbase : base.text.toList with
    | nil =>
      rw [hempty hbase]
      simpa [isAbsolute, hbase] using hright
    | cons c r => simp [isAbsolute, hbase]
  · next h =>
    cases hbase : base.text.toList with
    | nil => exact absurd (by simp [← String.toList_eq_nil_iff, hbase]) h
    | cons c r => simp [isAbsolute, hbase]

theorem names_join (hright : right.isAbsolute = false) :
    (base.join right).names = base.names ++ right.names := by
  show namesIn _ = namesIn _ ++ namesIn _
  unfold join
  rw [if_neg (by simp [hright])]
  split
  · next h =>
    rcases Bool.or_eq_true_iff.mp h with hempty | hslash
    · have hbase : base.text.toList = [] := by simpa using hempty
      rw [String.toList_append, hbase]
      rfl
    · obtain ⟨front, hfront⟩ := List.getLast?_eq_some_iff.mp (beq_iff_eq.mp hslash)
      have hnil : namesIn [] = [] := rfl
      rw [String.toList_append, hfront, List.append_assoc, List.singleton_append,
        namesIn_append_slash, namesIn_append_slash, hnil, List.append_nil]
  · rw [String.toList_append, String.toList_append, List.append_assoc]
    exact namesIn_append_slash _ _

/-- **Where a joined path leads**: along the names of the second part, from where the first part
leads. -/
theorem denoted_join (hright : right.isAbsolute = false) :
    fs.denoted (base.join right) = right.names.foldl along (fs.denoted base) := by
  unfold denoted start
  rw [isAbsolute_join hright, names_join hright, List.foldl_append]

/-! ## The temporary file -/

theorem not_mem_of_fileName (h : path.fileName = some name) : '/' ∉ name.toList := by
  unfold fileName at h
  split at h
  · cases h
  · dsimp only at h
    split at h
    · cases h
    · rw [← Option.some.inj h, String.toList_ofList, List.mem_reverse]
      exact fun hmem => absurd (List.mem_takeWhile_imp hmem) (by simp)

theorem isAbsolute_of_not_mem (h : '/' ∉ name.toList) : (Path.mk name).isAbsolute = false := by
  unfold isAbsolute
  rw [beq_eq_false_iff_ne]
  exact fun he => h (List.mem_of_head? he)

/-- A name that ends as the names of temporary files do leads to a place of that name. -/
theorem denoted_join_tmp (h : '/' ∉ name.toList) :
    fs.denoted (base.join ⟨name ++ ".tmp"⟩) = (name ++ ".tmp") :: fs.denoted base := by
  have htext : (name ++ ".tmp").toList = name.toList ++ ".tmp".toList := String.toList_append
  have hslash : '/' ∉ (name ++ ".tmp").toList := by
    rw [htext, List.mem_append]
    exact fun hmem => hmem.elim h (by decide)
  have hnames : (Path.mk (name ++ ".tmp")).names = [name ++ ".tmp"] := by
    have hne : (name ++ ".tmp").toList ≠ [] := by simp [htext]
    exact (namesIn_of_not_mem hne hslash).trans (by rw [String.ofList_toList])
  have hlength : 4 ≤ (name ++ ".tmp").length := by
    rw [String.length_append]
    exact Nat.le_add_left 4 name.length
  rw [denoted_join (isAbsolute_of_not_mem hslash), hnames]
  refine along_of_ne ?_ ?_
  · intro he
    rw [he] at hlength
    exact absurd hlength (by decide)
  · intro he
    rw [he] at hlength
    exact absurd hlength (by decide)

/-- **The temporary file of a path is beside the file.** -/
theorem denoted_temporary_of_fileName (h : path.fileName = some name) :
    ∃ directory, fs.denoted path = name :: directory ∧
      fs.denoted (Disk.temporary path) = (name ++ ".tmp") :: directory := by
  obtain ⟨parent, hparent, hpath⟩ : ∃ parent, path.parent = some parent ∧
    fs.denoted path = name :: fs.denoted parent := denoted_of_fileName h
  refine ⟨fs.denoted parent, hpath, ?_⟩
  unfold Disk.temporary withFileName
  rw [h, Option.isSome_some, if_pos rfl, Option.getD_some, hparent, Option.getD_some,
    denoted_join_tmp (not_mem_of_fileName h)]

/-- **The temporary file of a path is not at the place of the path.** -/
theorem denoted_temporary_ne (fs : FileSystem) (path : Path) :
    fs.denoted (Disk.temporary path) ≠ fs.denoted path := by
  cases hname : path.fileName with
  | none =>
    unfold Disk.temporary withFileName
    rw [hname, Option.isSome_none, if_neg Bool.false_ne_true, Option.getD_none,
      denoted_join_tmp (by decide)]
    exact List.cons_ne_self _ _
  | some name =>
    obtain ⟨directory, hpath, htemporary⟩ : ∃ directory, fs.denoted path = name :: directory ∧
      fs.denoted (Disk.temporary path) = (name ++ ".tmp") :: directory :=
        denoted_temporary_of_fileName hname
    rw [hpath, htemporary]
    intro he
    have hlength := congrArg String.length (List.cons.inj he).1
    simp at hlength

end FileSystem

end TestActor

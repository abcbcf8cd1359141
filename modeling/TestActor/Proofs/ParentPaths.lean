import Mathlib.Data.List.Chain
import Mathlib.Data.List.Infix
import Mathlib.Data.List.Nodup
import Mathlib.Data.List.Perm.Subperm
import TestActor.Proofs.SharedTypes

/-!
# Paths along parents

From a name upwards there is one way: the type of the name, the parent of that type, and so on, as
far as parents are declared and were not passed before. The ancestry of the name is the whole of
this way. Here this is said without the walk that makes an ancestry: of all paths along parents on
which no name stands twice, the ancestry is the longest, and every other one is a beginning of it.

A walk may also leave all types where they are and remember what it has passed, to stop where it
would pass a name again. Such a walk has passed one type more after every step until it is at its
end, and then it has passed the ancestry.

## Main definitions

* `TypeTable.IsParentPath`: a path along parents on which no name stands twice.
* `TypeTable.IsWholePath`: such a path, from the type of a name to where it cannot go on.
* `TypeTable.Reaches`: what can be reached along parents.
* `TypeTable.Walk`: a walk that remembers what it has passed.

## Main statements

* `TypeTable.isWholePath_ancestry`: an ancestry is a whole path.
* `TypeTable.isParentPath_iff_isPrefix`: paths along parents are the beginnings of the ancestry.
* `TypeTable.passed_walkAfter`: what a walk has passed after some steps.
* `TypeTable.ancestry_whole_path`: the ancestry is the one whole path, a walk finds it in as many
  steps, and it has all that can be reached.
-/

namespace TestActor

namespace TypeTable

variable {types : List TypeDecl} {table : TypeTable} {name : String} {decl above : TypeDecl}
  {path other : List TypeDecl}

/-! ## Lineages -/

theorem head?_lineage (types : List TypeDecl) (name : String) :
    (lineage types name).head? = types.find? (·.name == name) := by
  cases h : types.find? (·.name == name) with
  | none =>
    rw [lineage_of_find?_eq_none h]
    rfl
  | some decl =>
    rw [lineage_of_find?_eq_some h]
    rfl

/-- Along a lineage every type is the one that is found for the parent of the type before it. -/
theorem isChain_lineage (types : List TypeDecl) (name : String) :
    (lineage types name).IsChain fun decl above =>
      decl.parent.bind (fun parent => types.find? (·.name == parent)) = some above := by
  fun_induction lineage types name with
  | case1 => exact .nil
  | case2 types name decl hfound ih =>
    cases hp : decl.parent with
    | none => exact .singleton decl
    | some parent =>
      refine List.isChain_cons.mpr ⟨fun above habove => ?_, (ih parent).imp fun d a hda => ?_⟩
      · rw [head?_lineage] at habove
        rw [hp]
        exact (find?_of_find?_without habove).2
      · obtain ⟨p, hdp, hpa⟩ := Option.bind_eq_some_iff.mp hda
        rw [hdp]
        exact (find?_of_find?_without hpa).2

theorem nodup_lineage (types : List TypeDecl) (name : String) :
    ((lineage types name).map (·.name)).Nodup := by
  fun_induction lineage types name with
  | case1 => exact List.nodup_nil
  | case2 types name decl hfound ih =>
    have hname : decl.name = name := by simpa using List.find?_some hfound
    cases decl.parent with
    | none => exact List.nodup_singleton _
    | some parent =>
      refine List.nodup_cons.mpr ⟨fun hmem => ?_, ih parent⟩
      obtain ⟨d, hd, hdn⟩ := List.mem_map.mp hmem
      exact (mem_without.mp (mem_of_mem_lineage hd)).2 (hdn.trans hname)

/-- Behind the last type of a lineage there is no parent, or one that is not found or was passed. -/
theorem ends_lineage (types : List TypeDecl) (name : String) :
    ∀ last ∈ (lineage types name).getLast?, ∀ parent ∈ last.parent,
      types.find? (·.name == parent) = none ∨ parent ∈ (lineage types name).map (·.name) := by
  fun_induction lineage types name with
  | case1 => simp
  | case2 types name decl hfound ih =>
    have hname : decl.name = name := by simpa using List.find?_some hfound
    intro last hlast parent hparent
    cases hp : decl.parent with
    | none =>
      simp only [hp, List.getLast?_singleton, Option.mem_some] at hlast
      rw [Option.mem_def, ← hlast, hp] at hparent
      cases hparent
    | some next =>
      simp only [hp, List.getLast?_cons, Option.mem_some] at hlast
      -- what is not found without `name` is not found at all, or it is `name`
      have hrest : (without name types).find? (·.name == parent) = none ∨
          parent ∈ (lineage (without name types) next).map (·.name) := by
        cases htail : (lineage (without name types) next).getLast? with
        | none =>
          rw [htail, Option.getD_none] at hlast
          rw [Option.mem_def, ← hlast, hp] at hparent
          rw [List.getLast?_eq_none_iff, ← List.head?_eq_none_iff, head?_lineage] at htail
          rw [← Option.some.inj hparent]
          exact .inl htail
        | some d =>
          rw [htail, Option.getD_some] at hlast
          exact ih next last (by rw [htail, hlast]; rfl) parent hparent
      rw [find?_without] at hrest
      rw [List.map_cons, List.mem_cons, hname]
      split at hrest
      · next heq => exact .inr (.inl heq)
      · exact hrest.imp id .inr

/-! ## Paths -/

/-- The declared type that a type names as its parent. -/
def parentDecl? (table : TypeTable) (decl : TypeDecl) : Option TypeDecl :=
  decl.parent.bind table.get?

/-- Types one above the other, from the type of a name upwards; no name stands twice. -/
structure IsParentPath (table : TypeTable) (name : String) (path : List TypeDecl) : Prop where
  starts : ∀ first ∈ path.head?, table.get? name = some first
  linked : path.IsChain fun decl above => table.parentDecl? decl = some above
  nodup : (path.map (·.name)).Nodup

/-- A path along parents that begins at the type of a name, if that is declared, and ends where it
cannot go on: the last type has no parent, or one that is not declared or stands on the path. -/
structure IsWholePath (table : TypeTable) (name : String) (path : List TypeDecl) : Prop where
  starts : path.head? = table.get? name
  linked : path.IsChain fun decl above => table.parentDecl? decl = some above
  nodup : (path.map (·.name)).Nodup
  ends : ∀ last ∈ path.getLast?, ∀ parent ∈ last.parent,
    table.get? parent = none ∨ parent ∈ path.map (·.name)

/-- What comes next behind a path: the type of the name at first, then the parent of the last
type. -/
def next? (table : TypeTable) (name : String) (path : List TypeDecl) : Option TypeDecl :=
  match path.getLast? with
  | none => table.get? name
  | some last => table.parentDecl? last

theorem next?_concat (table : TypeTable) (name : String) (path : List TypeDecl) (decl : TypeDecl) :
    table.next? name (path ++ [decl]) = table.parentDecl? decl := by
  rw [next?, List.getLast?_concat]

theorem name_of_next? (h : table.next? name path = some decl) :
    table.get? decl.name = some decl := by
  have hget : ∀ {n : String}, table.get? n = some decl → table.get? decl.name = some decl := by
    intro n hn
    rw [name_of_get? hn]
    exact hn
  unfold next? at h
  split at h
  · exact hget h
  · obtain ⟨parent, -, hparent⟩ := Option.bind_eq_some_iff.mp h
    exact hget hparent

theorem isParentPath_nil (table : TypeTable) (name : String) : table.IsParentPath name [] :=
  ⟨by simp, .nil, List.nodup_nil⟩

theorem nodup_concat_iff :
    ((path ++ [decl]).map (·.name)).Nodup ↔
      (path.map (·.name)).Nodup ∧ decl.name ∉ path.map (·.name) := by
  rw [List.map_append, List.map_singleton, List.nodup_append_comm, List.singleton_append,
    List.nodup_cons, and_comm]

/-- A path can be longer by one type when this type comes next and its name is new. -/
theorem isParentPath_concat_iff :
    table.IsParentPath name (path ++ [decl]) ↔
      table.IsParentPath name path ∧ table.next? name path = some decl ∧
        decl.name ∉ path.map (·.name) := by
  rcases List.eq_nil_or_concat' path with rfl | ⟨front, last, rfl⟩
  · constructor
    · intro h
      exact ⟨isParentPath_nil table name, h.starts decl rfl, by simp⟩
    · rintro ⟨-, hnext, -⟩
      exact ⟨fun first hfirst => by cases hfirst; exact hnext, .singleton decl,
        List.nodup_singleton _⟩
  · have hhead : (front ++ [last] ++ [decl]).head? = (front ++ [last]).head? := by
      cases front <;> rfl
    rw [next?_concat]
    constructor
    · rintro ⟨hstarts, hlinked, hnames⟩
      obtain ⟨hfront, -, hlast⟩ := List.isChain_append.mp hlinked
      obtain ⟨hnames, hnew⟩ := nodup_concat_iff.mp hnames
      exact ⟨⟨hhead ▸ hstarts, hfront, hnames⟩, hlast last (by simp) decl rfl, hnew⟩
    · rintro ⟨⟨hstarts, hlinked, hnames⟩, hnext, hnew⟩
      refine ⟨hhead ▸ hstarts, ?_, nodup_concat_iff.mpr ⟨hnames, hnew⟩⟩
      refine List.isChain_append.mpr ⟨hlinked, .singleton decl, fun x hx y hy => ?_⟩
      rw [List.getLast?_concat, Option.mem_some] at hx
      cases hy
      rw [← hx]
      exact hnext

/-- A beginning of a path along parents is one. -/
theorem IsParentPath.of_isPrefix (h : table.IsParentPath name other) (hpath : path <+: other) :
    table.IsParentPath name path where
  starts first hfirst := by
    obtain ⟨rest, rfl⟩ := hpath
    cases path with
    | nil => cases hfirst
    | cons => exact h.starts first hfirst
  linked := h.linked.prefix hpath
  nodup := h.nodup.sublist (hpath.map _).sublist

/-- Of two paths along parents the shorter one is a beginning of the other. -/
theorem IsParentPath.isPrefix (hpath : table.IsParentPath name path)
    (hother : table.IsParentPath name other) (hlength : path.length ≤ other.length) :
    path <+: other := by
  induction path using List.reverseRecOn with
  | nil => exact List.nil_prefix
  | append_singleton front decl ih =>
    obtain ⟨hfront, hnext, -⟩ := isParentPath_concat_iff.mp hpath
    rw [List.length_append, List.length_singleton] at hlength
    obtain ⟨rest, rfl⟩ := ih hfront (by omega)
    cases rest with
    | nil =>
      rw [List.append_nil] at hlength
      omega
    | cons first rest =>
      -- what comes next behind `front` is the same type on both paths
      have hsplit : front ++ first :: rest = front ++ [first] ++ rest := by simp
      rw [hsplit] at hother ⊢
      have hfirst := hother.of_isPrefix (List.prefix_append _ _)
      have hsame := hnext.symm.trans (isParentPath_concat_iff.mp hfirst).2.1
      rw [Option.some.inj hsame]
      exact List.prefix_append _ _

namespace IsWholePath

theorem isParentPath (h : table.IsWholePath name path) : table.IsParentPath name path :=
  ⟨fun _ hfirst => h.starts.symm.trans hfirst, h.linked, h.nodup⟩

/-- Behind a whole path comes nothing, or a type whose name stands on it. -/
theorem name_mem_of_next? (h : table.IsWholePath name path)
    (hnext : table.next? name path = some decl) : decl.name ∈ path.map (·.name) := by
  unfold next? at hnext
  split at hnext
  · next hempty =>
    have hhead := h.starts
    rw [List.getLast?_eq_none_iff.mp hempty, hnext] at hhead
    cases hhead
  · next last hlast =>
    obtain ⟨parent, hparent, hfound⟩ := Option.bind_eq_some_iff.mp hnext
    rcases h.ends last hlast parent hparent with hnone | hmem
    · rw [hnone] at hfound
      cases hfound
    · rw [name_of_get? hfound]
      exact hmem

/-- **Every path along parents is a beginning of a whole path.** -/
theorem isPrefix (h : table.IsWholePath name other) (hpath : table.IsParentPath name path) :
    path <+: other := by
  rcases Nat.lt_or_ge other.length path.length with hlt | hle
  · -- a longer path would go on behind the whole one
    obtain ⟨rest, rfl⟩ := h.isParentPath.isPrefix hpath (Nat.le_of_lt hlt)
    cases rest with
    | nil => simp at hlt
    | cons first rest =>
      have hfirst : table.IsParentPath name (other ++ [first]) :=
        hpath.of_isPrefix ⟨rest, by simp⟩
      obtain ⟨-, hnext, hnew⟩ := isParentPath_concat_iff.mp hfirst
      exact absurd (h.name_mem_of_next? hnext) hnew
  · exact hpath.isPrefix h.isParentPath hle

theorem unique (h : table.IsWholePath name path) (hother : table.IsWholePath name other) :
    path = other :=
  (hother.isPrefix h.isParentPath).eq_of_length_le
    (h.isPrefix hother.isParentPath).length_le

end IsWholePath

/-! ## Ancestries -/

/-- **An ancestry is a whole path.** -/
theorem isWholePath_ancestry (table : TypeTable) (name : String) :
    table.IsWholePath name (table.ancestry name) where
  starts := head?_lineage table.types name
  linked := isChain_lineage table.types name
  nodup := nodup_lineage table.types name
  ends := ends_lineage table.types name

/-- **The paths along parents are the beginnings of the ancestry.** -/
theorem isParentPath_iff_isPrefix :
    table.IsParentPath name path ↔ path <+: table.ancestry name :=
  ⟨(isWholePath_ancestry table name).isPrefix,
    (isWholePath_ancestry table name).isParentPath.of_isPrefix⟩

theorem isWholePath_iff : table.IsWholePath name path ↔ path = table.ancestry name :=
  ⟨fun h => h.unique (isWholePath_ancestry table name),
    fun h => h ▸ isWholePath_ancestry table name⟩

/-! ## What can be reached -/

/-- What can be reached from a name: its declared type, and the declared parents of what can be
reached. -/
inductive Reaches (table : TypeTable) (name : String) : TypeDecl → Prop
  | self {decl : TypeDecl} (h : table.get? name = some decl) : Reaches table name decl
  | parent {decl above : TypeDecl} (h : Reaches table name decl)
      (habove : table.parentDecl? decl = some above) : Reaches table name above

/-- The parent of a type of an ancestry is in the ancestry, too, if it is declared. -/
theorem mem_ancestry_of_parentDecl? (h : decl ∈ table.ancestry name)
    (habove : table.parentDecl? decl = some above) : above ∈ table.ancestry name := by
  obtain ⟨before, after, hsplit⟩ := List.append_of_mem h
  have hbefore : table.IsParentPath name (before ++ [decl]) :=
    isParentPath_iff_isPrefix.mpr ⟨after, by rw [hsplit]; simp⟩
  have hnext : table.next? name (before ++ [decl]) = some above := by
    rw [next?_concat, habove]
  by_cases hmem : above.name ∈ (before ++ [decl]).map (·.name)
  · -- the path has come back to a type that stands on it
    obtain ⟨d, hd, hname⟩ := List.mem_map.mp hmem
    have hd : d ∈ table.ancestry name :=
      (isParentPath_iff_isPrefix.mp hbefore).subset hd
    have hget := get?_of_mem_ancestry hd
    rw [hname, name_of_next? hnext] at hget
    rw [Option.some.inj hget]
    exact hd
  · have hlonger := isParentPath_concat_iff.mpr ⟨hbefore, hnext, hmem⟩
    exact (isParentPath_iff_isPrefix.mp hlonger).subset (by simp)

theorem IsParentPath.reaches (h : table.IsParentPath name path) (hmem : decl ∈ path) :
    table.Reaches name decl := by
  induction path using List.reverseRecOn generalizing decl with
  | nil => cases hmem
  | append_singleton front last ih =>
    obtain ⟨hfront, hnext, -⟩ := isParentPath_concat_iff.mp h
    rcases List.mem_append.mp hmem with hmem | hmem
    · exact ih hfront hmem
    · obtain rfl := List.mem_singleton.mp hmem
      unfold next? at hnext
      split at hnext
      · exact .self hnext
      · next below hbelow => exact .parent (ih hfront (List.mem_of_getLast? hbelow)) hnext

/-- **An ancestry has all types that can be reached.** -/
theorem mem_ancestry_iff : decl ∈ table.ancestry name ↔ table.Reaches name decl := by
  constructor
  · exact (isWholePath_ancestry table name).isParentPath.reaches
  · intro h
    induction h with
    | self h =>
      rw [ancestry, lineage_of_find?_eq_some h]
      exact List.mem_cons_self
    | parent _ habove ih => exact mem_ancestry_of_parentDecl? ih habove

/-! ## Walks that remember what they have passed -/

/-- A walk on its way: the types that it has passed, and the one that comes next. -/
structure Walk where
  passed : List TypeDecl
  next : Option TypeDecl

/-- One step: the next type is passed. A walk is at its end where no type comes next, or one with
the name of a type that it has passed. -/
def Walk.step? (table : TypeTable) (walk : Walk) : Option Walk :=
  match walk.next with
  | none => none
  | some decl =>
    if walk.passed.any (·.name == decl.name) then none
    else some ⟨walk.passed ++ [decl], table.parentDecl? decl⟩

/-- The walk from a name after some steps; at its end it stays. -/
def walkAfter (table : TypeTable) (name : String) : Nat → Walk
  | 0 => ⟨[], table.get? name⟩
  | steps + 1 => ((table.walkAfter name steps).step? table).getD (table.walkAfter name steps)

/-- What a walk from a name keeps: it has passed a path along parents, and goes on behind it. -/
structure Walk.IsFrom (table : TypeTable) (name : String) (walk : Walk) : Prop where
  path : table.IsParentPath name walk.passed
  next : walk.next = table.next? name walk.passed

namespace Walk

variable {walk later : Walk}

theorem step?_eq_some_iff :
    walk.step? table = some later ↔
      ∃ decl, walk.next = some decl ∧ decl.name ∉ walk.passed.map (·.name) ∧
        later = ⟨walk.passed ++ [decl], table.parentDecl? decl⟩ := by
  constructor
  · intro h
    unfold step? at h
    split at h
    · cases h
    · next decl hnext =>
      split at h
      · cases h
      · next hnew => exact ⟨decl, hnext, by simpa using hnew, (Option.some.inj h).symm⟩
  · rintro ⟨decl, hnext, hnew, rfl⟩
    unfold step?
    rw [hnext]
    exact if_neg (by simpa using hnew)

/-- One step keeps what a walk keeps, and passes one type. -/
theorem IsFrom.step (h : walk.IsFrom table name) (hstep : walk.step? table = some later) :
    later.IsFrom table name ∧ later.passed.length = walk.passed.length + 1 := by
  obtain ⟨decl, hnext, hnew, rfl⟩ := step?_eq_some_iff.mp hstep
  refine ⟨⟨isParentPath_concat_iff.mpr ⟨h.path, ?_, hnew⟩, (next?_concat ..).symm⟩,
    List.length_append⟩
  rw [← h.next, hnext]

/-- At its end a walk has passed the ancestry. -/
theorem IsFrom.passed_eq (h : walk.IsFrom table name) (hend : walk.step? table = none) :
    walk.passed = table.ancestry name := by
  obtain ⟨rest, hrest⟩ := isParentPath_iff_isPrefix.mp h.path
  cases rest with
  | nil => rw [← hrest, List.append_nil]
  | cons decl rest =>
    -- the ancestry goes on, and so does the walk
    have hlonger : table.IsParentPath name (walk.passed ++ [decl]) :=
      isParentPath_iff_isPrefix.mpr ⟨rest, by rw [← hrest]; simp⟩
    obtain ⟨-, hnext, hnew⟩ := isParentPath_concat_iff.mp hlonger
    have hstep : walk.step? table = some ⟨walk.passed ++ [decl], table.parentDecl? decl⟩ :=
      step?_eq_some_iff.mpr ⟨decl, h.next.trans hnext, hnew, rfl⟩
    rw [hend] at hstep
    cases hstep

end Walk

/-- After some steps a walk has passed as many types, or fewer and is at its end. -/
theorem isFrom_walkAfter (table : TypeTable) (name : String) (steps : Nat) :
    (table.walkAfter name steps).IsFrom table name ∧
      (table.walkAfter name steps).passed.length ≤ steps ∧
      ((table.walkAfter name steps).passed.length = steps ∨
        (table.walkAfter name steps).step? table = none) := by
  induction steps with
  | zero => exact ⟨⟨isParentPath_nil table name, rfl⟩, Nat.le_refl 0, .inl rfl⟩
  | succ steps ih =>
    obtain ⟨hfrom, hle, hlength⟩ := ih
    unfold walkAfter
    cases hstep : (table.walkAfter name steps).step? table with
    | none => exact ⟨hfrom, Nat.le_succ_of_le hle, .inr hstep⟩
    | some later =>
      obtain ⟨hlater, hmore⟩ := hfrom.step hstep
      have hsteps := hlength.resolve_right (by rw [hstep]; exact Option.some_ne_none later)
      rw [hsteps] at hmore
      exact ⟨hlater, Nat.le_of_eq hmore, .inl hmore⟩

/-- **What a walk has passed after some steps**: as many types of the ancestry, or all of them. -/
theorem passed_walkAfter (table : TypeTable) (name : String) (steps : Nat) :
    (table.walkAfter name steps).passed = (table.ancestry name).take steps := by
  obtain ⟨hfrom, hle, hlength⟩ := isFrom_walkAfter table name steps
  have htake := List.prefix_iff_eq_take.mp (isParentPath_iff_isPrefix.mp hfrom.path)
  rcases hlength with hlength | hend
  · rw [hlength] at htake
    exact htake
  · rw [hfrom.passed_eq hend] at hle ⊢
    exact (List.take_of_length_le hle).symm

/-- **A walk is at its end** when it has made as many steps as the ancestry has types. -/
theorem step?_walkAfter_eq_none_iff (table : TypeTable) (name : String) (steps : Nat) :
    (table.walkAfter name steps).step? table = none ↔ (table.ancestry name).length ≤ steps := by
  obtain ⟨hfrom, hle, hlength⟩ := isFrom_walkAfter table name steps
  constructor
  · intro hend
    rw [← hfrom.passed_eq hend]
    exact hle
  · intro hall
    cases hstep : (table.walkAfter name steps).step? table with
    | none => rfl
    | some later =>
      obtain ⟨hlater, hmore⟩ := hfrom.step hstep
      have hsteps := hlength.resolve_right (by rw [hstep]; exact Option.some_ne_none later)
      have hwithin := (isParentPath_iff_isPrefix.mp hlater.path).length_le
      omega

/-! ## Tables made by inserting -/

/-- Inserting keeps one type of each name. -/
theorem nodup_insert (h : (table.types.map (·.name)).Nodup) (decl : TypeDecl) :
    ((table.insert decl).types.map (·.name)).Nodup := by
  refine List.nodup_cons.mpr ⟨fun hmem => ?_, h.sublist (List.filter_sublist.map _)⟩
  obtain ⟨d, hd, hname⟩ := List.mem_map.mp hmem
  exact (mem_without.mp hd).2 hname

theorem nodup_ofList (decls : List TypeDecl) : ((ofList decls).types.map (·.name)).Nodup := by
  unfold ofList
  induction decls using List.reverseRecOn with
  | nil => exact List.nodup_nil
  | append_singleton decls decl ih =>
    rw [List.foldl_concat]
    exact nodup_insert ih decl

theorem length_ancestry_le (table : TypeTable) (name : String) :
    (table.ancestry name).length ≤ table.types.length :=
  ((isWholePath_ancestry table name).nodup.of_map.subperm fun _ => mem_of_mem_lineage).length_le

theorem ancestry_eq_nil_iff : table.ancestry name = [] ↔ table.contains name = false := by
  rw [← List.head?_eq_none_iff, (isWholePath_ancestry table name).starts, contains,
    Option.isSome_eq_false_iff, Option.isNone_iff_eq_none]

/-- **The ancestry is the one whole path along parents.** For every table that is made by inserting
types and for every name, the walk from the name that remembers what it has passed is at its end
after as many steps as the ancestry has types, which are no more than the table has, and then it has
passed the ancestry. The ancestry is empty exactly when the type is not declared. It is the one path
that begins at the type of the name, goes from every type to the one that the table has for its
parent, has no name twice, and ends at a type without a parent, with a parent that is not declared
or with one that stands on the path already. All paths along parents on which no name stands twice
are beginnings of it, and what is on it is what can be reached along declared parents. -/
theorem ancestry_whole_path (decls : List TypeDecl) (name : String) :
    let table := ofList decls
    (∀ steps, (table.walkAfter name steps).passed = (table.ancestry name).take steps ∧
      ((table.walkAfter name steps).step? table = none ↔
        (table.ancestry name).length ≤ steps)) ∧
    (table.types.map (·.name)).Nodup ∧ (table.ancestry name).length ≤ table.types.length ∧
    (table.ancestry name = [] ↔ table.contains name = false) ∧
    (∀ path, table.IsWholePath name path ↔ path = table.ancestry name) ∧
    (∀ path, table.IsParentPath name path ↔ path <+: table.ancestry name) ∧
    ∀ decl, decl ∈ table.ancestry name ↔ table.Reaches name decl := by
  intro table
  exact ⟨fun steps => ⟨passed_walkAfter table name steps,
      step?_walkAfter_eq_none_iff table name steps⟩,
    nodup_ofList decls, length_ancestry_le table name, ancestry_eq_nil_iff,
    fun _ => isWholePath_iff, fun _ => isParentPath_iff_isPrefix, fun _ => mem_ancestry_iff⟩

end TypeTable

end TestActor

import Mathlib.Data.List.Induction
import TestActor.Json

/-!
# JSON text is read back from its end

JSON text stands behind other text with nothing between them, so it is the end of the whole that
tells where the JSON text begins. Inside a string every quotation mark has a backslash before it;
the mark that opens the string has none, as long as the text before the string does not end in a
backslash.

## Main statements

* `Json.append_quote_inj`: where a string at the end of a text begins.
* `Json.append_ofStrings_inj`, `Json.append_ofPairs_inj`: the same of a list and of an object,
  behind any text.
-/

namespace TestActor.Json

open Text

/-! ## Characters of a string -/

/-- Reads the character that an escape behind a backslash stands for. -/
def unescapeSlash? : List Char → Option (Char × List Char)
  | [] => none
  | c :: rest =>
    if c = 'b' then some ('\x08', rest)
    else if c = 't' then some ('\t', rest)
    else if c = 'n' then some ('\n', rest)
    else if c = 'f' then some ('\x0c', rest)
    else if c = 'r' then some ('\r', rest)
    else if c = 'u' then
      match rest with
      | '0' :: '0' :: a :: b :: rest =>
        match hexValue? a, hexValue? b with
        | some high, some low => some (Char.ofNat (16 * high + low), rest)
        | _, _ => none
      | _ => none
    else some (c, rest)

/-- Reads the first character of a text inside a string. -/
def unescape? : List Char → Option (Char × List Char)
  | [] => none
  | c :: rest => if c = '\\' then unescapeSlash? rest else some (c, rest)

/-- **A character is read back from what is written for it, whatever follows.** -/
theorem unescape?_escape (c : Char) (rest : List Char) :
    unescape? (escape c ++ rest) = some (c, rest) := by
  unfold escape
  split
  · next h => rw [h]; rfl
  split
  · next h => rw [h]; rfl
  split
  · next h => rw [h]; rfl
  split
  · next h => rw [h]; rfl
  split
  · next h => rw [h]; rfl
  split
  · next h => rw [h]; rfl
  split
  · next h => rw [h]; rfl
  split
  · next h =>
    have hhigh : hexValue? (hexDigit (c.toNat / 16)) = some (c.toNat / 16) :=
      hexValue?_hexDigit (by omega)
    have hlow : hexValue? (hexDigit (c.toNat % 16)) = some (c.toNat % 16) :=
      hexValue?_hexDigit (by omega)
    show unescapeSlash? ('u' :: '0' :: '0' :: hexDigit (c.toNat / 16) ::
      hexDigit (c.toNat % 16) :: rest) = some (c, rest)
    simp only [unescapeSlash?, hhigh, hlow]
    rw [Nat.div_add_mod, Char.ofNat_toNat]
    rfl
  · next hquote hslash _ _ _ _ _ _ => exact if_neg hslash

theorem flatMap_escape_inj {s t : List Char} (h : s.flatMap escape = t.flatMap escape) : s = t := by
  -- What is written for a character is not empty, since the character is read back from it.
  have hcons : ∀ (c : Char) (s : List Char), escape c ++ s ≠ [] := by
    intro c s he
    have := unescape?_escape c s
    rw [he] at this
    cases this
  induction s generalizing t with
  | nil =>
    cases t with
    | nil => rfl
    | cons d t => exact absurd h.symm (hcons d _)
  | cons c s ih =>
    cases t with
    | nil => exact absurd h (hcons c _)
    | cons d t =>
      have hread := congrArg unescape? h
      rw [List.flatMap_cons, List.flatMap_cons, unescape?_escape, unescape?_escape] at hread
      obtain ⟨rfl, hrest⟩ := Prod.mk.inj (Option.some.inj hread)
      rw [ih hrest]

/-! ## Quotation marks inside a string -/

/-- Every quotation mark has a backslash right before it. -/
def Guarded (text : List Char) : Prop :=
  ∀ before after, text = before ++ '"' :: after → before.getLast? = some '\\'

theorem Guarded.append {s t : List Char} (hs : Guarded s) (ht : Guarded t) : Guarded (s ++ t) := by
  intro before after h
  rcases List.append_eq_append_iff.mp h with ⟨middle, rfl, hcut⟩ | ⟨middle, rfl, hcut⟩
  · rw [List.getLast?_append, ht middle after hcut]
    rfl
  · cases middle with
    | nil =>
      -- a mark at the very front of the second part would have nothing before it
      have hnil := ht [] after hcut.symm
      cases hnil
    | cons c middle =>
      obtain ⟨rfl, -⟩ := List.cons.inj hcut
      exact hs before middle rfl

theorem quotationMark_not_mem_escape {c : Char} (hc : c ≠ '"') : '"' ∉ escape c := by
  have hdigit : ∀ {n : Nat}, n < 16 → '"' ≠ hexDigit n := by
    intro n hn he
    have := isLowerHex_hexDigit hn
    rw [← he] at this
    cases this
  unfold escape
  rw [if_neg hc]
  split
  · decide
  split
  · decide
  split
  · decide
  split
  · decide
  split
  · decide
  split
  · decide
  split
  · next h =>
    have hhigh : '"' ≠ hexDigit (c.toNat / 16) := hdigit (by omega)
    have hlow : '"' ≠ hexDigit (c.toNat % 16) := hdigit (by omega)
    simp [hhigh, hlow]
  · simpa using hc.symm

theorem guarded_escape (c : Char) : Guarded (escape c) := by
  intro before after h
  by_cases hc : c = '"'
  · subst hc
    cases before with
    | nil => cases (List.cons.inj h).1
    | cons d before =>
      obtain ⟨rfl, hrest⟩ := List.cons.inj h
      cases before with
      | nil => rfl
      | cons e before =>
        have hnil := (List.cons.inj hrest).2
        exact absurd hnil (by simp)
  · refine absurd ?_ (quotationMark_not_mem_escape hc)
    rw [h]
    exact List.mem_append_right before List.mem_cons_self

theorem guarded_flatMap_escape (s : List Char) : Guarded (s.flatMap escape) := by
  induction s with
  | nil =>
    intro before after h
    exact absurd h (by simp)
  | cons c s ih => exact (guarded_escape c).append ih

/-- **Where a string at the end of a text begins.** The text before it does not end in a
backslash. -/
theorem append_quote_inj {p q : List Char} {s t : String} (hp : p.getLast? ≠ some '\\')
    (hq : q.getLast? ≠ some '\\') (h : p ++ quote s = q ++ quote t) : p = q ∧ s = t := by
  -- an opening mark further back would stand inside the other string, without a backslash
  have hfront : ∀ {p q middle : List Char} {s t : String}, q.getLast? ≠ some '\\' →
      q = p ++ middle → '"' :: s.toList.flatMap escape
        = middle ++ '"' :: t.toList.flatMap escape → middle = [] := by
    intro p q middle s t hq hsplit hrest
    cases middle with
    | nil => rfl
    | cons c middle =>
      obtain ⟨rfl, hinner⟩ := List.cons.inj hrest
      have hlast := guarded_flatMap_escape s.toList middle _ hinner
      refine absurd ?_ hq
      rw [hsplit, List.getLast?_append, List.getLast?_cons, hlast]
      rfl
  have hopen : p ++ '"' :: s.toList.flatMap escape = q ++ '"' :: t.toList.flatMap escape := by
    have hclosed : p ++ '"' :: s.toList.flatMap escape ++ ['"']
        = q ++ '"' :: t.toList.flatMap escape ++ ['"'] := by
      rw [List.append_assoc, List.append_assoc]
      exact h
    exact List.append_cancel_right hclosed
  have hpq : p = q := by
    rcases List.append_eq_append_iff.mp hopen with ⟨middle, hsplit, hrest⟩ | ⟨middle, hsplit, hrest⟩
    · rw [hsplit, hfront hq hsplit hrest, List.append_nil]
    · rw [hsplit, hfront hp hsplit hrest, List.append_nil]
  subst hpq
  have hinner := (List.cons.inj (List.append_cancel_left hopen)).2
  exact ⟨rfl, String.toList_inj.mp (flatMap_escape_inj hinner)⟩

/-! ## Items between brackets -/

section Items

variable {α : Type} {write : α → List Char}

/-- Items that are told apart from what stands before them. -/
structure ReadBack (write : α → List Char) : Prop where
  /-- An item ends in a quotation mark. -/
  last : ∀ x, (write x).getLast? = some '"'
  inj : ∀ {p q : List Char} {x y : α}, p.getLast? ≠ some '\\' → q.getLast? ≠ some '\\' →
    p ++ write x = q ++ write y → p = q ∧ x = y

theorem quote_readBack : ReadBack quote where
  last _ := List.getLast?_concat
  inj := append_quote_inj

theorem member_readBack :
    ReadBack fun member : String × String => quote member.1 ++ ':' :: quote member.2 where
  last member := by
    rw [List.getLast?_append, List.getLast?_cons, quote_readBack.last]
    rfl
  inj := by
    intro p q x y hp hq h
    have hcolon : ∀ (p : List Char) (s : String), (p ++ quote s ++ [':']).getLast? ≠ some '\\' := by
      intro p s
      rw [List.getLast?_concat]
      decide
    have hvalues : p ++ quote x.1 ++ [':'] ++ quote x.2 = q ++ quote y.1 ++ [':'] ++ quote y.2 := by
      simpa using h
    obtain ⟨hkeys, hvalue⟩ := append_quote_inj (hcolon p x.1) (hcolon q y.1) hvalues
    obtain ⟨hfront, hkey⟩ := append_quote_inj hp hq (List.append_cancel_right hkeys)
    exact ⟨hfront, Prod.ext hkey hvalue⟩

/-- Every item but the last one has a comma behind it. -/
theorem commaSeparated_concat (items : List (List Char)) (item : List Char) :
    commaSeparated (items ++ [item]) = items.flatMap (· ++ [',']) ++ item := by
  unfold commaSeparated
  induction items with
  | nil => exact List.intercalate_singleton
  | cons first items ih =>
    have hne : items ++ [item] ≠ [] := by simp
    rw [List.cons_append, List.intercalate_cons_of_ne_nil hne, ih, List.flatMap_cons]
    simp

/-- An opening bracket and items, each with a comma behind it. -/
def opened (opening : Char) (write : α → List Char) (xs : List α) : List Char :=
  opening :: xs.flatMap (write · ++ [','])

theorem opened_concat (opening : Char) (xs : List α) (x : α) :
    opened opening write (xs ++ [x]) = opened opening write xs ++ write x ++ [','] := by
  simp [opened]

theorem getLast?_append_opened (p : List Char) (opening : Char) (xs : List α) :
    (p ++ opened opening write xs).getLast? = some opening ∨
      (p ++ opened opening write xs).getLast? = some ',' := by
  induction xs using List.reverseRecOn with
  | nil => exact .inl List.getLast?_concat
  | append_singleton xs x _ =>
    rw [opened_concat, ← List.append_assoc]
    exact .inr List.getLast?_concat

theorem getLast?_append_opened_ne {opening c : Char} (hopening : opening ≠ c) (hc : ',' ≠ c)
    (p : List Char) (xs : List α) : (p ++ opened opening write xs).getLast? ≠ some c := by
  intro h
  rcases getLast?_append_opened p opening xs with he | he
  · exact hopening (Option.some.inj (he.symm.trans h))
  · exact hc (Option.some.inj (he.symm.trans h))

/-- **Where the items with a comma each begin, and which they are.** They are taken off one by one
from the end. -/
theorem append_opened_inj (hwrite : ReadBack write) {opening : Char} (hcomma : opening ≠ ',')
    (hslash : opening ≠ '\\') {p q : List Char} {xs ys : List α}
    (h : p ++ opened opening write xs = q ++ opened opening write ys) : p = q ∧ xs = ys := by
  -- The bracket alone does not end as items behind it do.
  have hnil : ∀ {p q : List Char} {y : α} {ys : List α},
      p ++ opened opening write [] ≠ q ++ opened opening write (ys ++ [y]) := by
    intro p q y ys he
    have hlast := congrArg List.getLast? he
    rw [opened_concat, ← List.append_assoc, List.getLast?_concat] at hlast
    exact hcomma (Option.some.inj (List.getLast?_concat.symm.trans hlast))
  -- Only the last item is known to be told apart, hence the induction from the end.
  induction xs using List.reverseRecOn generalizing ys with
  | nil =>
    rcases List.eq_nil_or_concat ys with rfl | ⟨ys, y, rfl⟩
    · exact ⟨List.append_cancel_right h, rfl⟩
    · rw [List.concat_eq_append] at h
      exact absurd h hnil
  | append_singleton xs x ih =>
    rcases List.eq_nil_or_concat ys with rfl | ⟨ys, y, rfl⟩
    · exact absurd h.symm hnil
    · rw [List.concat_eq_append] at h ⊢
      rw [opened_concat, opened_concat, ← List.append_assoc, ← List.append_assoc,
        ← List.append_assoc, ← List.append_assoc] at h
      have hne : ∀ (p : List Char) (xs : List α),
          (p ++ opened opening write xs).getLast? ≠ some '\\' :=
        getLast?_append_opened_ne hslash (by decide)
      obtain ⟨hrest, rfl⟩ := hwrite.inj (hne p xs) (hne q ys) (List.append_cancel_right h)
      obtain ⟨hfront, rfl⟩ := ih hrest
      exact ⟨hfront, rfl⟩

/-- Items between brackets end as the last item does, or in the opening bracket. -/
theorem bracketed_concat (opening : Char) (xs : List α) (x : α) :
    opening :: commaSeparated ((xs ++ [x]).map write) = opened opening write xs ++ write x := by
  rw [List.map_append, List.map_singleton, commaSeparated_concat, List.flatMap_map]
  rfl

/-- **Where bracketed items at the end of a text begin, and which they are.** -/
theorem append_bracketed_inj (hwrite : ReadBack write) {opening closing : Char}
    (hcomma : opening ≠ ',') (hslash : opening ≠ '\\') (hquote : opening ≠ '"') {p q : List Char}
    {xs ys : List α} (h : p ++ (opening :: commaSeparated (xs.map write) ++ [closing])
      = q ++ (opening :: commaSeparated (ys.map write) ++ [closing])) : p = q ∧ xs = ys := by
  have hnil : ∀ {p q : List Char} {y : α} {ys : List α},
      p ++ [opening] ≠ q ++ (opened opening write ys ++ write y) := by
    intro p q y ys he
    have hlast := congrArg List.getLast? he
    rw [List.getLast?_concat, List.getLast?_append, List.getLast?_append, hwrite.last] at hlast
    exact hquote (Option.some.inj hlast)
  rw [← List.append_assoc, ← List.append_assoc] at h
  have hitems := List.append_cancel_right h
  rcases List.eq_nil_or_concat xs with rfl | ⟨xs, x, rfl⟩
  · rcases List.eq_nil_or_concat ys with rfl | ⟨ys, y, rfl⟩
    · exact ⟨List.append_cancel_right hitems, rfl⟩
    · rw [List.concat_eq_append, bracketed_concat] at hitems
      exact absurd hitems hnil
  · rcases List.eq_nil_or_concat ys with rfl | ⟨ys, y, rfl⟩
    · rw [List.concat_eq_append, bracketed_concat] at hitems
      exact absurd hitems.symm hnil
    · rw [List.concat_eq_append, List.concat_eq_append, bracketed_concat, bracketed_concat,
        ← List.append_assoc, ← List.append_assoc] at hitems
      have hne : ∀ (p : List Char) (xs : List α),
          (p ++ opened opening write xs).getLast? ≠ some '\\' :=
        getLast?_append_opened_ne hslash (by decide)
      obtain ⟨hrest, rfl⟩ := hwrite.inj (hne p xs) (hne q ys) hitems
      obtain ⟨hfront, rfl⟩ := append_opened_inj hwrite hcomma hslash hrest
      rw [List.concat_eq_append]
      exact ⟨hfront, rfl⟩

end Items

theorem append_ofStrings_inj {p q : List Char} {xs ys : List String}
    (h : p ++ ofStrings xs = q ++ ofStrings ys) : p = q ∧ xs = ys :=
  append_bracketed_inj quote_readBack (by decide) (by decide) (by decide) h

theorem append_ofPairs_inj {p q : List Char} {xs ys : List (String × String)}
    (h : p ++ ofPairs xs = q ++ ofPairs ys) : p = q ∧ xs = ys :=
  append_bracketed_inj member_readBack (by decide) (by decide) (by decide) h

end TestActor.Json

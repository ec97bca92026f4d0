import Mathlib.Data.List.Nodup
import Mathlib.Data.List.Basic
import Mathlib.Order.Basic
import Mathlib.Order.Defs.LinearOrder
import Mathlib.Order.Nat
import Mathlib.Data.List.Sort
import Mathlib.Data.List.MinMax
import Mathlib.Data.List.Find

/-!
# Tables with an autoincremented key

A `Table ρ key` holds rows with pairwise different keys, all below the next key to be given out, so
that a key names at most one row and is never given out twice.  The rows are kept in the order in
which they were inserted; an update leaves a row where it is.

A database is free to scan a table in any order.  `reorder rank` is the order in which it ranks the
positions by `rank`; every permutation of the rows is one of these orders.
-/

/-! ## Scan orders -/

/-- The elements of `l`, ordered by the rank of their positions. -/
def reorder {α : Type} (rank : ℕ → ℕ) (l : List α) : List α :=
  (l.zipIdx.insertionSort fun a b => rank a.2 ≤ rank b.2).map Prod.fst

theorem reorder_perm {α : Type} (rank : ℕ → ℕ) (l : List α) : (reorder rank l).Perm l := by
  have h := (List.perm_insertionSort (fun a b : α × ℕ => rank a.2 ≤ rank b.2) l.zipIdx).map Prod.fst
  rwa [List.zipIdx_map_fst] at h

@[simp] theorem mem_reorder {α : Type} {rank : ℕ → ℕ} {l : List α} {a : α} :
    a ∈ reorder rank l ↔ a ∈ l := (reorder_perm rank l).mem_iff

/-- A search for the only element of its kind does not depend on the order. -/
theorem find?_reorder {α : Type} {rank : ℕ → ℕ} {l : List α} {p : α → Bool}
    (h : ∀ a ∈ l, ∀ b ∈ l, p a = true → p b = true → a = b) :
    (reorder rank l).find? p = l.find? p := by
  cases hl : l.find? p with
  | none =>
    rw [List.find?_eq_none] at hl ⊢
    exact fun a ha => hl a (mem_reorder.1 ha)
  | some a =>
    have ha := List.mem_of_find?_eq_some hl
    cases hr : (reorder rank l).find? p with
    | none => exact absurd (List.find?_some hl) (List.find?_eq_none.1 hr a (mem_reorder.2 ha))
    | some b =>
      have hb := mem_reorder.1 (List.mem_of_find?_eq_some hr)
      exact congrArg some (h b hb a ha (List.find?_some hr) (List.find?_some hl))

/-- Any element comes first in some order. -/
theorem exists_reorder_cons {α : Type} {l : List α} {a : α} (ha : a ∈ l) :
    ∃ rank rest, reorder rank l = a :: rest := by
  obtain ⟨i, hi, hget⟩ := List.getElem_of_mem ha
  -- the order that begins with the position of the element
  let rank : ℕ → ℕ := fun j => if j = i then 0 else 1
  have hmem : (a, i) ∈ l.zipIdx.insertionSort fun x y => rank x.2 ≤ rank y.2 := by
    rw [List.mem_insertionSort, List.mem_zipIdx_iff_getElem?, List.getElem?_eq_getElem hi, hget]
  have hsub : ∀ x ∈ l.zipIdx.insertionSort fun x y => rank x.2 ≤ rank y.2, l[x.2]? = some x.1 :=
    fun x hx => List.mem_zipIdx_iff_getElem?.1 ((List.mem_insertionSort _).1 hx)
  have hsorted : (l.zipIdx.insertionSort fun x y => rank x.2 ≤ rank y.2).Pairwise
      fun x y => rank x.2 ≤ rank y.2 := by
    have : Std.Total fun x y : α × ℕ => rank x.2 ≤ rank y.2 := ⟨fun x y => Nat.le_total _ _⟩
    have : IsTrans (α × ℕ) fun x y => rank x.2 ≤ rank y.2 := ⟨fun _ _ _ => Nat.le_trans⟩
    exact List.pairwise_insertionSort _ _
  refine ⟨rank, ?_⟩
  unfold reorder
  generalize (l.zipIdx.insertionSort fun x y => rank x.2 ≤ rank y.2) = sorted at *
  cases sorted with
  | nil => cases hmem
  | cons x rest =>
    -- only the element's own position ranks so low
    have hfirst : x.2 = i := by
      by_contra hne
      obtain hx | hx := List.mem_cons.1 hmem
      · exact hne (congrArg Prod.snd hx).symm
      · have hle := (List.pairwise_cons.1 hsorted).1 _ hx
        simp [rank, hne] at hle
    have hx := hsub x List.mem_cons_self
    rw [hfirst, List.getElem?_eq_getElem hi, hget, Option.some.injEq] at hx
    exact ⟨rest.map Prod.fst, by rw [List.map_cons, ← hx]⟩

/-- A search finds any element of its kind in some order. -/
theorem exists_find?_reorder {α : Type} {l : List α} {p : α → Bool} {a : α} (ha : a ∈ l)
    (hp : p a = true) : ∃ rank, (reorder rank l).find? p = some a := by
  obtain ⟨rank, rest, h⟩ := exists_reorder_cons ha
  refine ⟨rank, ?_⟩
  rw [h, List.find?_cons, hp]

/-- A search by a key that tells the elements apart. -/
theorem find?_key_eq_some_iff {α κ : Type} [DecidableEq κ] {l : List α} {key : α → κ}
    (h : (l.map key).Nodup) {k : κ} {a : α} :
    l.find? (fun b => key b == k) = some a ↔ a ∈ l ∧ key a = k := by
  constructor
  · intro hfind
    exact ⟨List.mem_of_find?_eq_some hfind, by simpa using List.find?_some hfind⟩
  · rintro ⟨ha, rfl⟩
    cases hfind : l.find? fun b => key b == key a with
    | none => exact absurd (List.find?_eq_none.1 hfind a ha) (by simp)
    | some b =>
      have hkey : key b = key a := by simpa using List.find?_some hfind
      exact congrArg some (List.inj_on_of_nodup_map h (List.mem_of_find?_eq_some hfind) ha hkey)

/-- It fails if no element has the key. -/
theorem find?_key_eq_none_iff {α κ : Type} [DecidableEq κ] {l : List α} {key : α → κ} {k : κ} :
    l.find? (fun b => key b == k) = none ↔ ∀ a ∈ l, key a ≠ k := by
  rw [List.find?_eq_none]
  simp

/-- The greatest value does not depend on the order, nor on how often a value occurs. -/
theorem map_argmax_eq {α β : Type} [LinearOrder β] {f : α → β} {l l' : List α}
    (h : ∀ a ∈ l, ∃ b ∈ l', f b = f a) (h' : ∀ b ∈ l', ∃ a ∈ l, f a = f b) :
    (l.argmax f).map f = (l'.argmax f).map f := by
  cases hl : l.argmax f with
  | none =>
    obtain rfl := List.argmax_eq_none.1 hl
    cases hl' : l'.argmax f with
    | none => rfl
    | some b =>
      obtain ⟨a, ha, -⟩ := h' b (List.argmax_mem hl')
      cases ha
  | some a =>
    obtain ⟨b, hb, hfb⟩ := h a (List.argmax_mem hl)
    cases hl' : l'.argmax f with
    | none =>
      obtain rfl := List.argmax_eq_none.1 hl'
      cases hb
    | some b' =>
      obtain ⟨a', ha', hfa'⟩ := h' b' (List.argmax_mem hl')
      have hle : f a ≤ f b' := hfb ▸ List.le_of_mem_argmax hb hl'
      have hge : f b' ≤ f a := hfa' ▸ List.le_of_mem_argmax ha' hl
      exact congrArg some (le_antisymm hle hge)

/-! ## Tables -/

/-- A table of rows `ρ`, keyed by `key`. -/
structure Table (ρ : Type) (key : ρ → ℕ) where
  /-- The rows, in insertion order. -/
  rows : List ρ
  /-- The key of the next row. -/
  next : ℕ
  key_lt : ∀ r ∈ rows, key r < next
  nodup : (rows.map key).Nodup

namespace Table

variable {ρ : Type} {key : ρ → ℕ}

theorem ext_rows {t u : Table ρ key} (hrows : t.rows = u.rows) (hnext : t.next = u.next) :
    t = u := by
  cases t
  cases u
  subst hrows hnext
  rfl

instance [DecidableEq ρ] : DecidableEq (Table ρ key) := fun t u =>
  decidable_of_iff (t.rows = u.rows ∧ t.next = u.next)
    ⟨fun h => ext_rows h.1 h.2, fun h => h ▸ ⟨rfl, rfl⟩⟩

/-- The empty table; the first key is `1`. -/
def empty : Table ρ key := ⟨[], 1, by simp, by simp⟩

instance : Inhabited (Table ρ key) := ⟨empty⟩

@[simp] theorem rows_empty : (empty : Table ρ key).rows = [] := rfl

/-- The row with key `i`. -/
def get? (t : Table ρ key) (i : ℕ) : Option ρ := t.rows.find? fun r => key r == i

/-- Append the row `mk t.next`. -/
def insert (t : Table ρ key) (mk : ℕ → ρ) (hmk : ∀ n, key (mk n) = n) : Table ρ key where
  rows := t.rows ++ [mk t.next]
  next := t.next + 1
  key_lt r hr := by
    rcases List.mem_append.1 hr with h | h
    · exact Nat.lt_succ_of_lt (t.key_lt r h)
    · rw [List.mem_singleton.1 h, hmk]
      exact Nat.lt_succ_self _
  nodup := by
    rw [List.map_append, List.map_singleton, hmk, List.nodup_append]
    refine ⟨t.nodup, List.nodup_singleton _, ?_⟩
    rintro k hk _ hn rfl
    obtain ⟨r, hr, rfl⟩ := List.mem_map.1 hk
    exact absurd (t.key_lt r hr) (by rw [List.mem_singleton.1 hn]; exact lt_irrefl _)

/-- Update the row with key `i`, keeping its key. -/
def modify (t : Table ρ key) (i : ℕ) (f : ρ → ρ) (hf : ∀ r, key (f r) = key r) : Table ρ key where
  rows := t.rows.map fun r => if key r = i then f r else r
  next := t.next
  key_lt r hr := by
    obtain ⟨r', hr', rfl⟩ := List.mem_map.1 hr
    split_ifs
    · rw [hf]
      exact t.key_lt r' hr'
    · exact t.key_lt r' hr'
  nodup := by
    have : (key ∘ fun r => if key r = i then f r else r) = key := by
      funext r
      simp only [Function.comp_apply]
      split_ifs
      · exact hf r
      · rfl
    rw [List.map_map, this]
    exact t.nodup

/-- Delete the rows that satisfy `p`. -/
def delete (t : Table ρ key) (p : ρ → Bool) : Table ρ key where
  rows := t.rows.filter fun r => !p r
  next := t.next
  key_lt r hr := t.key_lt r (List.mem_of_mem_filter hr)
  nodup := t.nodup.sublist (List.filter_sublist.map key)

section Lemmas

variable {t : Table ρ key} {i : ℕ} {r : ρ}

theorem get?_eq_some_iff : t.get? i = some r ↔ r ∈ t.rows ∧ key r = i := by
  unfold get?
  constructor
  · intro h
    exact ⟨List.mem_of_find?_eq_some h, by simpa using List.find?_some h⟩
  · rintro ⟨hr, rfl⟩
    rcases hf : t.rows.find? fun r' => key r' == key r with _ | r'
    · exact absurd (List.find?_eq_none.1 hf r hr) (by simp)
    · have hr' := List.mem_of_find?_eq_some hf
      have hk : key r' = key r := by simpa using List.find?_some hf
      rw [List.inj_on_of_nodup_map t.nodup hr' hr hk]

theorem get?_eq_none_iff : t.get? i = none ↔ ∀ r ∈ t.rows, key r ≠ i := by
  simp [get?, List.find?_eq_none]

theorem get?_of_mem (hr : r ∈ t.rows) : t.get? (key r) = some r :=
  get?_eq_some_iff.2 ⟨hr, rfl⟩

theorem mem_of_get? (h : t.get? i = some r) : r ∈ t.rows := (get?_eq_some_iff.1 h).1

theorem key_of_get? (h : t.get? i = some r) : key r = i := (get?_eq_some_iff.1 h).2

theorem lt_next_of_get? (h : t.get? i = some r) : i < t.next :=
  key_of_get? h ▸ t.key_lt r (mem_of_get? h)

theorem get?_next : t.get? t.next = none :=
  get?_eq_none_iff.2 fun r hr => (t.key_lt r hr).ne

/-- Rows of a kind of which all have one key are at most one. -/
theorem countP_le_one {p : ρ → Bool}
    (h : ∀ r ∈ t.rows, ∀ r' ∈ t.rows, p r = true → p r' = true → key r = key r') :
    t.rows.countP p ≤ 1 := by
  rw [List.countP_eq_length_filter]
  have hnodup : ((t.rows.filter p).map key).Nodup := t.nodup.sublist (List.filter_sublist.map key)
  have hmem : ∀ r ∈ t.rows.filter p, r ∈ t.rows ∧ p r = true := fun r hr => List.mem_filter.1 hr
  generalize t.rows.filter p = rows at hnodup hmem
  by_contra hlen
  match rows with
  | [] => exact hlen (Nat.zero_le _)
  | [_] => exact hlen le_rfl
  | r :: r' :: rows =>
    obtain ⟨hr, hp⟩ := hmem r (by simp)
    obtain ⟨hr', hp'⟩ := hmem r' (by simp)
    have hkey : key r = key r' := h r hr r' hr' hp hp'
    simp [hkey] at hnodup

/-- Of several rows of a kind, one is not the given one. -/
theorem exists_ne_of_countP {p : ρ → Bool} (h : 1 < t.rows.countP p) (r : ρ) :
    ∃ r' ∈ t.rows, p r' = true ∧ r' ≠ r := by
  by_contra hnone
  have heq : ∀ x ∈ t.rows, p x = true → x = r := fun x hx hp =>
    by_contra fun hne => hnone ⟨x, hx, hp, hne⟩
  have hle : t.rows.countP p ≤ 1 := countP_le_one fun x hx y hy hpx hpy => by
    rw [heq x hx hpx, heq y hy hpy]
  omega

/-! ### Insertion -/

section Insert

variable {mk : ℕ → ρ} {hmk : ∀ n, key (mk n) = n}

@[simp] theorem rows_insert : (t.insert mk hmk).rows = t.rows ++ [mk t.next] := rfl

@[simp] theorem next_insert : (t.insert mk hmk).next = t.next + 1 := rfl

theorem mem_insert : r ∈ (t.insert mk hmk).rows ↔ r ∈ t.rows ∨ r = mk t.next := by simp

theorem get?_insert : (t.insert mk hmk).get? i = if i = t.next then some (mk t.next) else t.get? i := by
  split_ifs with hi
  · rw [get?_eq_some_iff, hi]
    exact ⟨mem_insert.2 (.inr rfl), hmk _⟩
  · unfold get?
    rw [rows_insert, List.find?_append, List.find?_singleton]
    simp [hmk, Ne.symm hi]

theorem get?_insert_of_get? (h : t.get? i = some r) : (t.insert mk hmk).get? i = some r := by
  rw [get?_insert, if_neg (lt_next_of_get? h).ne, h]

end Insert

/-! ### Update -/

section Modify

variable {f : ρ → ρ} {hf : ∀ r, key (f r) = key r} {j : ℕ}

@[simp] theorem rows_modify :
    (t.modify i f hf).rows = t.rows.map fun r => if key r = i then f r else r := rfl

@[simp] theorem next_modify : (t.modify i f hf).next = t.next := rfl

theorem get?_modify :
    (t.modify i f hf).get? j = if j = i then (t.get? i).map f else t.get? j := by
  have hkey : ((fun r => key r == j) ∘ fun r => if key r = i then f r else r) =
      fun r => key r == j := by
    funext r
    simp only [Function.comp_apply]
    split_ifs
    · rw [hf]
    · rfl
  unfold get?
  rw [rows_modify, List.find?_map, hkey]
  split_ifs with hj
  · subst hj
    rcases h : t.rows.find? fun r => key r == j with _ | r
    · rfl
    · rw [Option.map_some, Option.map_some, if_pos (by simpa using List.find?_some h)]
  · rcases h : t.rows.find? fun r => key r == j with _ | r
    · rfl
    · have hk : key r = j := by simpa using List.find?_some h
      rw [Option.map_some, if_neg (hk.trans_ne hj)]

theorem get?_modify_self : (t.modify i f hf).get? i = (t.get? i).map f := by
  rw [get?_modify, if_pos rfl]

theorem get?_modify_of_ne (hj : j ≠ i) : (t.modify i f hf).get? j = t.get? j := by
  rw [get?_modify, if_neg hj]

theorem modify_of_get?_eq_none (h : t.get? i = none) : t.modify i f hf = t := by
  refine ext_rows ?_ rfl
  rw [rows_modify, ← List.map_id t.rows, List.map_map]
  refine List.map_congr_left fun r hr => ?_
  exact if_neg (get?_eq_none_iff.1 h r hr)

/-- An update that leaves the row as it is. -/
theorem modify_of_eq_self (h : t.get? i = some r) (hr : f r = r) : t.modify i f hf = t := by
  refine ext_rows ?_ rfl
  rw [rows_modify]
  refine (List.map_congr_left fun b hb => ?_).trans (List.map_id _)
  by_cases hi : key b = i
  · obtain rfl : r = b := Option.some.inj (h.symm.trans (hi ▸ get?_of_mem hb))
    rw [if_pos hi, hr, id]
  · rw [if_neg hi, id]

theorem mem_modify :
    r ∈ (t.modify i f hf).rows ↔ ∃ r' ∈ t.rows, r = if key r' = i then f r' else r' := by
  simp only [rows_modify, List.mem_map, eq_comm]

end Modify

/-! ### One row replaced -/

/-- The rows of `t'` are those of `t`, with `r'` in the place of `r`. -/
structure Replaces (t t' : Table ρ key) (r r' : ρ) : Prop where
  mem : r ∈ t.rows
  key_eq : key r' = key r
  rows : t'.rows = t.rows.map fun b => if key b = key r then r' else b

theorem eq_of_key_eq {b : ρ} (hr : r ∈ t.rows) (hb : b ∈ t.rows) (h : key b = key r) : b = r :=
  List.inj_on_of_nodup_map t.nodup hb hr h

theorem Replaces.refl (hr : r ∈ t.rows) : t.Replaces t r r := by
  refine ⟨hr, rfl, ((List.map_congr_left fun b hb => ?_).trans (List.map_id _)).symm⟩
  split_ifs with h
  · exact (eq_of_key_eq hr hb h).symm
  · rfl

theorem replaces_modify {f : ρ → ρ} {hf : ∀ r, key (f r) = key r} (hr : r ∈ t.rows) :
    t.Replaces (t.modify (key r) f hf) r (f r) := by
  refine ⟨hr, hf r, List.map_congr_left fun b hb => ?_⟩
  split_ifs with h
  · rw [eq_of_key_eq hr hb h]
  · rfl

section Replaces

variable {t' t'' : Table ρ key} {r' r'' : ρ} {p : ρ → Bool}

theorem Replaces.mem_after (h : t.Replaces t' r r') : r' ∈ t'.rows := by
  rw [h.rows]
  exact List.mem_map.2 ⟨r, h.mem, if_pos rfl⟩

theorem Replaces.trans (h : t.Replaces t' r r') (h' : t'.Replaces t'' r' r'') :
    t.Replaces t'' r r'' := by
  refine ⟨h.mem, h'.key_eq.trans h.key_eq, ?_⟩
  rw [h'.rows, h.rows, List.map_map]
  refine List.map_congr_left fun b _ => ?_
  rw [Function.comp_apply, h.key_eq]
  by_cases hb : key b = key r
  · rw [if_pos hb, if_pos h.key_eq, if_pos hb]
  · rw [if_neg hb, if_neg hb]

theorem Replaces.split (h : t.Replaces t' r r') :
    ∃ pre post, t.rows = pre ++ r :: post ∧ t'.rows = pre ++ r' :: post := by
  obtain ⟨pre, post, hrows⟩ := List.mem_iff_append.1 h.mem
  have hnodup := t.nodup
  rw [hrows, List.map_append, List.map_cons, List.nodup_append, List.nodup_cons] at hnodup
  obtain ⟨-, ⟨hpost, -⟩, hpre⟩ := hnodup
  refine ⟨pre, post, hrows, ?_⟩
  have hkept : ∀ rows : List ρ, (∀ b ∈ rows, key b ≠ key r) →
      (rows.map fun b => if key b = key r then r' else b) = rows := fun rows hrows =>
    (List.map_congr_left fun b hb => if_neg (hrows b hb)).trans (List.map_id _)
  rw [h.rows, hrows, List.map_append, List.map_cons, if_pos rfl]
  congr 1
  · exact hkept pre fun b hb => hpre _ (List.mem_map_of_mem hb) _ List.mem_cons_self
  · refine congrArg _ (hkept post fun b hb hkey => hpost ?_)
    rw [← hkey]
    exact List.mem_map_of_mem hb

/-- Only the replaced row counts otherwise. -/
theorem Replaces.countP (h : t.Replaces t' r r') (p : ρ → Bool) :
    t'.rows.countP p + (p r).toNat = t.rows.countP p + (p r').toNat := by
  obtain ⟨pre, post, hrows, hrows'⟩ := h.split
  rw [hrows, hrows', List.countP_append, List.countP_append, List.countP_cons, List.countP_cons]
  cases p r <;> cases p r' <;> simp <;> omega

theorem Replaces.length (h : t.Replaces t' r r') : t'.rows.length = t.rows.length := by
  rw [h.rows, List.length_map]

/-- The other rows stay. -/
theorem Replaces.mem_of_ne (h : t.Replaces t' r r') {b : ρ} (hb : b ∈ t.rows) (hne : b ≠ r) :
    b ∈ t'.rows := by
  obtain ⟨pre, post, hrows, hrows'⟩ := h.split
  rw [hrows] at hb
  rw [hrows']
  simp only [List.mem_append, List.mem_cons] at hb ⊢
  tauto

theorem Replaces.eq_or_mem (h : t.Replaces t' r r') {b : ρ} (hb : b ∈ t'.rows) :
    b = r' ∨ b ∈ t.rows := by
  obtain ⟨pre, post, hrows, hrows'⟩ := h.split
  rw [hrows'] at hb
  rw [hrows]
  simp only [List.mem_append, List.mem_cons] at hb ⊢
  tauto

/-- A search for which the two rows are alike finds in `t'` what it finds in `t`. -/
theorem Replaces.find? (h : t.Replaces t' r r') (hp : p r' = p r) :
    t'.rows.find? p = (t.rows.find? p).map fun b => if key b = key r then r' else b := by
  rw [h.rows, List.find?_map]
  congr 1
  refine List.find?_congr fun b hb => ?_
  rw [Function.comp_apply]
  split_ifs with hkey
  · rw [hp, eq_of_key_eq h.mem hb hkey]
  · rfl

theorem Replaces.find?_of_found (h : t.Replaces t' r r') (hr : t.rows.find? p = some r)
    (hr' : p r' = true) : t'.rows.find? p = some r' := by
  rw [h.find? (hr'.trans (List.find?_some hr).symm), hr, Option.map_some, if_pos rfl]

theorem Replaces.find?_of_not (h : t.Replaces t' r r') (hr : p r = false) (hr' : p r' = false) :
    t'.rows.find? p = t.rows.find? p := by
  rw [h.find? (hr'.trans hr.symm)]
  cases hfind : t.rows.find? p with
  | none => rfl
  | some b =>
    have hb := List.find?_some hfind
    rw [Option.map_some, if_neg fun hkey => ?_]
    rw [eq_of_key_eq h.mem (List.mem_of_find?_eq_some hfind) hkey, hr] at hb
    cases hb

/-- The only row that a search can find is replaced by one that it does not look for. -/
theorem Replaces.find?_of_ended (h : t.Replaces t' r r')
    (honly : ∀ b ∈ t.rows, p b = true → b = r) (hr' : p r' = false) : t'.rows.find? p = none := by
  rw [h.rows, List.find?_eq_none]
  intro b' hb'
  obtain ⟨b, hb, rfl⟩ := List.mem_map.1 hb'
  split_ifs with hkey
  · rw [hr']
    decide
  · exact fun hpb => hkey (congrArg key (honly b hb hpb))

end Replaces

/-! ### Deletion -/

section Delete

variable {p : ρ → Bool}

@[simp] theorem rows_delete : (t.delete p).rows = t.rows.filter fun r => !p r := rfl

@[simp] theorem next_delete : (t.delete p).next = t.next := rfl

theorem mem_delete : r ∈ (t.delete p).rows ↔ r ∈ t.rows ∧ p r = false := by
  simp [List.mem_filter]

theorem get?_delete : (t.delete p).get? i = (t.get? i).filter fun r => !p r := by
  rcases h : t.get? i with _ | r
  · rw [Option.filter_none, get?_eq_none_iff]
    exact fun r hr => get?_eq_none_iff.1 h r (mem_delete.1 hr).1
  · rcases hp : p r with _ | _
    · rw [Option.filter_some_pos (by simp [hp]), get?_eq_some_iff]
      exact ⟨mem_delete.2 ⟨mem_of_get? h, hp⟩, key_of_get? h⟩
    · rw [Option.filter_some_neg (by simp [hp]), get?_eq_none_iff]
      rintro r' hr' rfl
      have hr := mem_delete.1 hr'
      rw [get?_of_mem hr.1] at h
      cases h
      rw [hr.2] at hp
      cases hp

end Delete

end Lemmas

end Table

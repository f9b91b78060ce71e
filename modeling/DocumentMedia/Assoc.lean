/-! # Ordered maps

Maps as lists of pairs that keep the order in which keys came first. Main statements: what was put
is found, other keys are untouched, and keys stay distinct.
-/
namespace DocumentMedia

abbrev Assoc (κ β : Type) := List (κ × β)

namespace Assoc

variable {κ β : Type} [BEq κ]

def find? (m : Assoc κ β) (k : κ) : Option β :=
  match m with
  | [] => none
  | (k', v) :: rest => if k' == k then some v else find? rest k

/-- Puts `v` under `k`: in its old place, or at the end. -/
def put (m : Assoc κ β) (k : κ) (v : β) : Assoc κ β :=
  match m with
  | [] => [(k, v)]
  | (k', v') :: rest => if k' == k then (k', v) :: rest else (k', v') :: put rest k v

def without (m : Assoc κ β) (k : κ) : Assoc κ β := m.filter fun (k', _) => !(k' == k)

def putAll (m n : Assoc κ β) : Assoc κ β := n.foldl (fun m (k, v) => put m k v) m

def ofPairs (n : List (κ × β)) : Assoc κ β := putAll [] n

def keys (m : Assoc κ β) : List κ := m.map (·.1)

theorem find?_put [LawfulBEq κ] (m : Assoc κ β) (k k' : κ) (v : β) :
    find? (put m k v) k' = if k == k' then some v else find? m k' := by
  induction m with
  | nil => simp [put, find?]
  | cons p rest ih =>
    obtain ⟨j, w⟩ := p
    by_cases hj : j = k
    · subst hj
      by_cases hk : j = k' <;> simp [put, find?, hk]
    · by_cases hk : k = k'
      · subst hk
        simp [put, find?, hj, ih]
      · by_cases hjk : j = k'
        · subst hjk
          simp [put, find?, hj, hk]
        · simp [put, find?, hj, hk, hjk, ih]

theorem mem_of_find? [LawfulBEq κ] {m : Assoc κ β} {k : κ} {v : β} (h : find? m k = some v) :
    (k, v) ∈ m := by
  induction m with
  | nil => cases h
  | cons p rest ih =>
    obtain ⟨j, w⟩ := p
    by_cases hj : j = k
    · subst hj
      simp only [find?, beq_self_eq_true, if_true, Option.some.injEq] at h
      exact h ▸ List.mem_cons_self
    · simp only [find?, beq_iff_eq, hj, if_false] at h
      exact List.mem_cons_of_mem _ (ih h)

theorem mem_keys_put [LawfulBEq κ] (m : Assoc κ β) (k k' : κ) (v : β) :
    k' ∈ keys (put m k v) ↔ k' = k ∨ k' ∈ keys m := by
  induction m with
  | nil => simp [put, keys]
  | cons p rest ih =>
    obtain ⟨j, w⟩ := p
    simp only [keys] at ih
    by_cases hj : j = k
    · subst hj
      simp [put, keys]
    · simp only [put, beq_iff_eq, hj, if_false, keys, List.map_cons, List.mem_cons, ih]
      exact or_left_comm

theorem nodup_keys_put [LawfulBEq κ] (m : Assoc κ β) (k : κ) (v : β)
    (h : (keys m).Nodup) : (keys (put m k v)).Nodup := by
  induction m with
  | nil => simp [put, keys]
  | cons p rest ih =>
    obtain ⟨j, w⟩ := p
    simp only [keys, List.map_cons, List.nodup_cons] at h
    by_cases hj : j = k
    · subst hj
      simpa [put, keys] using h
    · have hm : j ∉ keys (put rest k v) := by
        rw [mem_keys_put]
        simp only [not_or]
        exact ⟨hj, h.1⟩
      simp only [put, beq_iff_eq, hj, if_false, keys, List.map_cons, List.nodup_cons]
      exact ⟨hm, ih h.2⟩

theorem nodup_keys_ofPairs [LawfulBEq κ] (n : List (κ × β)) : (keys (ofPairs n)).Nodup := by
  have hputAll (m : Assoc κ β) (h : (keys m).Nodup) : (keys (putAll m n)).Nodup := by
    induction n generalizing m with
    | nil => exact h
    | cons p rest ih => exact ih _ (nodup_keys_put m p.1 p.2 h)
  exact hputAll [] List.nodup_nil

theorem put_of_notMem [LawfulBEq κ] {m : Assoc κ β} {k : κ} (h : k ∉ keys m) (v : β) :
    put m k v = m ++ [(k, v)] := by
  induction m with
  | nil => rfl
  | cons p rest ih =>
    obtain ⟨j, w⟩ := p
    simp only [keys, List.map_cons, List.mem_cons, not_or] at h
    have hj : j ≠ k := fun he => h.1 he.symm
    simp only [put, beq_iff_eq, hj, if_false, List.cons_append]
    rw [ih h.2]

theorem putAll_of_nodup [LawfulBEq κ] (m n : Assoc κ β) (h : (keys (m ++ n)).Nodup) :
    putAll m n = m ++ n := by
  induction n generalizing m with
  | nil => simp [putAll]
  | cons p rest ih =>
    obtain ⟨k, v⟩ := p
    have hk : k ∉ keys m := by
      intro hm
      rw [keys, List.map_append, List.nodup_append] at h
      exact h.2.2 k hm k (by simp) rfl
    have happ : m ++ (k, v) :: rest = m ++ [(k, v)] ++ rest := by simp
    rw [happ] at h ⊢
    rw [← ih _ h, ← put_of_notMem hk]
    rfl

theorem ofPairs_of_nodup [LawfulBEq κ] {n : Assoc κ β} (h : (keys n).Nodup) : ofPairs n = n :=
  putAll_of_nodup [] n h

theorem filter_putAll [LawfulBEq κ] (q : κ → Bool) (m n : Assoc κ β) :
    (putAll m n).filter (fun p => q p.1) =
      putAll (m.filter fun p => q p.1) (n.filter fun p => q p.1) := by
  have filter_put (m : Assoc κ β) (k : κ) (v : β) : (put m k v).filter (fun p => q p.1) =
      if q k then put (m.filter fun p => q p.1) k v else m.filter fun p => q p.1 := by
    induction m with
    | nil => by_cases hk : q k <;> simp [put, hk]
    | cons p rest ih =>
      obtain ⟨j, w⟩ := p
      by_cases hj : j = k
      · subst hj
        by_cases hq : q j <;> simp [put, hq]
      · by_cases hq : q j <;> by_cases hk : q k <;> simp [put, hj, hq, hk, ih]
  induction n generalizing m with
  | nil => rfl
  | cons p rest ih =>
    have hstep := ih (put m p.1 p.2)
    rw [filter_put] at hstep
    simp only [putAll, List.foldl_cons] at hstep ⊢
    rw [hstep]
    by_cases hk : q p.1 <;> simp [hk]

theorem map_putAll {γ : Type} (f : β → γ) (m n : Assoc κ β) :
    (putAll m n).map (fun p => (p.1, f p.2)) =
      putAll (m.map fun p => (p.1, f p.2)) (n.map fun p => (p.1, f p.2)) := by
  have map_put (m : Assoc κ β) (k : κ) (v : β) : (put m k v).map (fun p => (p.1, f p.2)) =
      put (m.map fun p => (p.1, f p.2)) k (f v) := by
    induction m with
    | nil => rfl
    | cons p rest ih =>
      simp only [put, List.map_cons]
      split
      · rfl
      · rw [List.map_cons, ih]
  induction n generalizing m with
  | nil => rfl
  | cons p rest ih =>
    simp only [putAll, List.foldl_cons, List.map_cons] at ih ⊢
    rw [ih, map_put]

theorem mem_of_mem_putAll [LawfulBEq κ] {m n : Assoc κ β} {p : κ × β} (h : p ∈ putAll m n) :
    p ∈ m ∨ p ∈ n := by
  have mem_put {m : Assoc κ β} {k : κ} {v : β} (h : p ∈ put m k v) : p ∈ m ∨ p = (k, v) := by
    induction m with
    | nil => exact Or.inr (by simpa [put] using h)
    | cons q rest ih =>
      obtain ⟨j, w⟩ := q
      by_cases hj : j = k
      · subst hj
        simp only [put, beq_self_eq_true, if_true, List.mem_cons] at h ⊢
        exact h.symm.imp_left Or.inr
      · simp only [put, beq_iff_eq, hj, if_false, List.mem_cons] at h ⊢
        rcases h with h | h
        · exact Or.inl (Or.inl h)
        · exact (ih h).imp_left Or.inr
  induction n generalizing m with
  | nil => exact Or.inl h
  | cons q rest ih =>
    rcases ih h with h | h
    · refine (mem_put h).imp_right fun he => ?_
      rw [he]
      exact List.mem_cons_self
    · exact Or.inr (List.mem_cons_of_mem _ h)

/-- Of the pairs that are put, the last one of a key is found. -/
theorem find?_putAll [LawfulBEq κ] (m n : Assoc κ β) (k : κ) : find? (putAll m n) k =
    ((n.filter fun p => p.1 == k).getLast?.map (·.2)).or (find? m k) := by
  induction n generalizing m with
  | nil => rfl
  | cons p rest ih =>
    have hstep := ih (put m p.1 p.2)
    rw [find?_put] at hstep
    simp only [putAll, List.foldl_cons] at hstep ⊢
    rw [hstep]
    by_cases hk : p.1 = k
    · subst hk
      simp only [List.filter_cons, beq_self_eq_true, if_true, List.getLast?_cons]
      cases (rest.filter fun q => q.1 == p.1).getLast? <;> rfl
    · simp [hk]

theorem find?_ofPairs [LawfulBEq κ] (n : Assoc κ β) (k : κ) :
    find? (ofPairs n) k = ((n.filter fun p => p.1 == k).getLast?).map (·.2) := by
  rw [ofPairs, find?_putAll]
  exact Option.or_none

theorem putAll_append (m n n' : Assoc κ β) : putAll m (n ++ n') = putAll (putAll m n) n' :=
  List.foldl_append

theorem find?_map {γ : Type} (f : β → γ) (m : Assoc κ β) (k : κ) :
    find? (m.map fun p => (p.1, f p.2)) k = (find? m k).map f := by
  induction m with
  | nil => rfl
  | cons p rest ih =>
    simp only [List.map_cons, find?]
    split
    · rfl
    · exact ih

end Assoc

end DocumentMedia

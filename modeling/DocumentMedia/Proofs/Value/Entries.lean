import DocumentMedia.Value.Entries

/-! # Entries under text keys

Main statement: what was put under a text key is found there, and other text keys are untouched. -/
namespace DocumentMedia.Value

theorem under?_putEntry (es : List (Value × Value)) (key name : String) (v : Value) :
    under? (putEntry es (.str key) v) name = if key = name then some v else under? es name := by
  induction es with
  | nil => simp [putEntry, under?]
  | cons e es ih =>
    obtain ⟨k, w⟩ := e
    rw [putEntry]
    cases k with
    | str s =>
      by_cases hs : s = key
      · subst hs
        by_cases hk : s = name <;> simp [sameKey, under?, hk]
      · by_cases hk : s = name
        · subst hk
          simp [sameKey, under?, hs, Ne.symm hs]
        · simp [sameKey, under?, hs, hk, ih]
    | _ => simp [sameKey, under?, integer?, ih]

theorem under?_cons (k v : Value) (es : List (Value × Value)) (name : String) :
    under? ((k, v) :: es) name = if k.sameKey (.str name) then some v else under? es name := by
  cases k <;> simp [under?, sameKey, integer?]

/-- A value that stands under its key already changes nothing. -/
theorem putEntry_of_under? {es : List (Value × Value)} {key : String} {v : Value}
    (h : under? es key = some v) : putEntry es (.str key) v = es := by
  induction es with
  | nil => cases h
  | cons e es ih =>
    obtain ⟨k, w⟩ := e
    rw [under?_cons] at h
    rw [putEntry]
    split
    · next hk =>
      rw [if_pos hk, Option.some.injEq] at h
      rw [h]
    · next hk =>
      rw [if_neg hk] at h
      rw [ih h]

/-- What holds of all keys holds of them after a value is put under such a key. -/
theorem forall_keys_putEntry {P : Value → Prop} {es : List (Value × Value)} {k v : Value}
    (hes : ∀ e ∈ es, P e.1) (hk : P k) : ∀ e ∈ putEntry es k v, P e.1 := by
  induction es with
  | nil =>
    intro e he
    rw [List.mem_singleton.mp he]
    exact hk
  | cons e es ih =>
    obtain ⟨k', w⟩ := e
    rw [List.forall_mem_cons] at hes
    rw [putEntry]
    split
    · exact List.forall_mem_cons.mpr ⟨hes.1, hes.2⟩
    · exact List.forall_mem_cons.mpr ⟨hes.1, ih hes.2⟩

theorem filter_of_under?_eq_none {es : List (Value × Value)} {key : String}
    (h : under? es key = none) : es.filter (fun e => !e.1.sameKey (.str key)) = es := by
  induction es with
  | nil => rfl
  | cons e es ih =>
    obtain ⟨k, w⟩ := e
    rw [under?_cons] at h
    split at h
    · cases h
    · next hk => rw [List.filter_cons_of_pos (by simpa using hk), ih h]

/-! ## Maps -/

/-- The keys of a map differ. -/
def Distinct (es : List (Value × Value)) : Prop := es.Pairwise fun a b => a.1.sameKey b.1 = false

theorem Distinct.putEntry {es : List (Value × Value)} (h : Distinct es) (k v : Value) :
    Distinct (Value.putEntry es k v) := by
  induction es with
  | nil => exact List.pairwise_singleton _ _
  | cons e es ih =>
    obtain ⟨k', w⟩ := e
    obtain ⟨hfirst, hrest⟩ := List.pairwise_cons.mp h
    rw [Value.putEntry]
    split
    · exact List.pairwise_cons.mpr ⟨hfirst, hrest⟩
    · next hk =>
      refine List.pairwise_cons.mpr ⟨?_, ih hrest⟩
      exact forall_keys_putEntry (P := fun key => k'.sameKey key = false) hfirst
        ((Bool.not_eq_true _).mp hk)

theorem eq_of_sameKey_str {k : Value} {name : String} (h : k.sameKey (.str name)) :
    k = .str name := by
  cases k <;> simp_all [sameKey, integer?]

theorem under?_eq_none {es : List (Value × Value)} {name : String}
    (h : ∀ e ∈ es, e.1.sameKey (.str name) = false) : under? es name = none := by
  induction es with
  | nil => rfl
  | cons e es ih =>
    obtain ⟨k, w⟩ := e
    rw [List.forall_mem_cons] at h
    rw [under?_cons, h.1, ih h.2]
    rfl

theorem under?_putEntry_ne (es : List (Value × Value)) {k : Value} {name : String}
    (h : k.sameKey (.str name) = false) (v : Value) :
    under? (putEntry es k v) name = under? es name := by
  induction es with
  | nil => rw [putEntry, under?_cons, h]; rfl
  | cons e es ih =>
    obtain ⟨k', w⟩ := e
    rw [putEntry]
    split
    · next hk =>
      have hname : k'.sameKey (.str name) = false := by
        rw [Bool.eq_false_iff]
        intro hsame
        rw [eq_of_sameKey_str hsame] at hk
        cases k <;> simp_all [sameKey, integer?]
      rw [under?_cons, under?_cons, hname, if_neg Bool.false_ne_true, if_neg Bool.false_ne_true]
    · rw [under?_cons, under?_cons, ih]

/-- A map that is put entry by entry over others, each value in a form of its own. -/
theorem under?_foldl_putEntry (f : Value → Value → Value) {ps : List (Value × Value)}
    (h : Distinct ps) (base : List (Value × Value)) (name : String) :
    under? (ps.foldl (fun es e => putEntry es e.1 (f e.1 e.2)) base) name =
      ((under? ps name).map (f (.str name))).or (under? base name) := by
  induction ps generalizing base with
  | nil => rfl
  | cons e ps ih =>
    obtain ⟨k, v⟩ := e
    obtain ⟨hfirst, hrest⟩ := List.pairwise_cons.mp h
    rw [List.foldl_cons, ih hrest, under?_cons]
    cases hk : k.sameKey (.str name) with
    | true =>
      have hkey := eq_of_sameKey_str hk
      subst hkey
      have hnone : under? ps name = none := under?_eq_none fun e he => by
        have hne := hfirst e he
        rw [Bool.eq_false_iff] at hne ⊢
        intro hsame
        rw [eq_of_sameKey_str hsame] at hne
        exact hne (by simp [sameKey])
      rw [hnone, under?_putEntry, if_pos rfl]
      rfl
    | false => rw [under?_putEntry_ne _ hk]; rfl

theorem distinct_putEntries {vs es es' : List _} {index : Nat} (h : Distinct es)
    (hput : putEntries es index vs = .ok es') : Distinct es' := by
  induction vs generalizing es index with
  | nil =>
    cases hput
    exact h
  | cons v vs ih =>
    rw [putEntries] at hput
    split at hput
    · cases hput
    · exact ih (h.putEntry _ _) hput

/-- Entries have distinct keys, if a map does. -/
theorem distinct_entries {v : Value} {es : List (Value × Value)}
    (hmap : ∀ es', v = .map es' → Distinct es') (h : v.entries = .ok es) : Distinct es := by
  unfold entries at h
  split at h
  · cases h
    exact List.Pairwise.nil
  · split at h
    · next es' =>
      cases h
      exact hmap es rfl
    · split at h
      · cases h
      · exact distinct_putEntries List.Pairwise.nil h

end DocumentMedia.Value

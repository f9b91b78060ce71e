import DocumentMedia.Ledger.Store
import DocumentMedia.Proofs.Files.Write
import DocumentMedia.Proofs.Json.RoundTrip

/-! # Loading what was saved

Whatever a store is kept in, a ledger that was saved is the one that is loaded next. -/
namespace DocumentMedia.Ledger

open DocumentMedia.Files

/-! ## JSON -/

theorem plain_entryJson (e : LedgerEntry) : (entryJson e).Plain := by
  simp [entryJson, JsonValue.Plain, JsonValue.PlainFields, Assoc.keys]

theorem plainFields_entries (l : Ledger) :
    JsonValue.PlainFields (l.map fun (hash, e) => (hash, entryJson e)) := by
  induction l with
  | nil => trivial
  | cons p rest ih => exact ⟨plain_entryJson p.2, ih⟩

theorem plain_ledger {l : Ledger} (hn : (Assoc.keys l).Nodup) :
    (JsonValue.object (l.map fun (hash, e) => (hash, entryJson e))).Plain := by
  refine ⟨?_, plainFields_entries l⟩
  have hkeys : Assoc.keys (l.map fun (hash, e) => (hash, entryJson e)) = Assoc.keys l := by
    simp [Assoc.keys, Function.comp_def]
  rw [hkeys]
  exact hn

theorem ofFields?_entryJson (now : String) (e : LedgerEntry) :
    ofFields? now (entryJson e) = some e := rfl

theorem ofJson?_entries (now : String) (l : Ledger) :
    ofJson? now (.object (l.map fun (hash, e) => (hash, entryJson e))) = some l := by
  rw [ofJson?]
  induction l with
  | nil => rfl
  | cons p rest ih =>
    obtain ⟨hash, e⟩ := p
    simp only [List.map_cons, List.mapM_cons, ofFields?_entryJson, Option.map_some, ih]
    rfl

theorem ofText?_toText (now : String) {l : Ledger} (hn : (Assoc.keys l).Nodup) :
    ofText? now (toText l) = some l := by
  rw [ofText?, toText, JsonValue.ofText?_toText (plain_ledger hn)]
  exact ofJson?_entries now l

theorem load_of_saveJson {t t' : Tree} {l : Ledger} {p : Path} (hn : (Assoc.keys l).Nodup)
    (h : Store.saveJson t l p = .ok t') (now : String) : Store.loadJson t' now p = .ok l := by
  obtain ⟨u, hw⟩ : ∃ u : Tree, u.writeText p (toText l) = .ok t' := by
    unfold Store.saveJson at h
    split at h
    · exact ⟨t, h⟩
    · obtain ⟨u, -, hw⟩ := bind_eq_ok.mp h
      exact ⟨u, hw⟩
  have hcr : '\r' ∉ (toText l).toList := by
    rw [toText, JsonValue.toText, String.toList_ofList]
    exact JsonValue.cr_notMem_write _ (plain_ledger hn) 0
  simp only [Store.loadJson, Tree.pathExists_writeText hw, Tree.readText_writeText hcr hw, ok_bind,
    Bool.not_true, Bool.false_eq_true, if_false, ofText?_toText now hn]
  rfl

/-! ## Tables -/

theorem ofRows_toRows {l : Ledger} (hn : (Assoc.keys l).Nodup) : ofRows (toRows l) = l := by
  have hrows : (toRows l).filterMap ofRow? = l := by
    unfold toRows
    rw [List.filterMap_map]
    exact (List.filterMap_congr fun p _ => rfl).trans List.filterMap_some
  rw [ofRows, hrows, Assoc.ofPairs_of_nodup hn]

theorem openTable_put {t : Tree} {p : Path} {place : Location} {rows : List (List String)}
    (hl : t.locate true p = .ok place) (hf : t.Free place) :
    openTable (t.put place (.file (.table rows))) p =
      .ok (t.put place (.file (.table rows)), rows) := by
  simp only [openTable, Tree.locate_put hl hf, Except.mapError, bind, Except.bind,
    Tree.at?_put_self hf]
  rfl

theorem openTable_free {t t' : Tree} {p : Path} {rows : List (List String)}
    (h : openTable t p = .ok (t', rows)) :
    ∃ place, t.locate true p = .ok place ∧ t.Free place ∧
      (t' = t ∨ t' = t.put place (.file (.table []))) := by
  obtain ⟨place, hl, h⟩ := bind_eq_ok.mp h
  refine ⟨place, mapError_eq_ok.mp hl, ?_⟩
  split at h
  · next hat => cases h; exact ⟨Or.inl hat, Or.inr rfl⟩
  · next hat => cases h; exact ⟨Or.inr ⟨_, hat⟩, Or.inr rfl⟩
  · next hat => cases h; exact ⟨Or.inr ⟨_, hat⟩, Or.inl rfl⟩
  · cases h
  · cases h

theorem free_openTable {t t' : Tree} {p : Path} {rows : List (List String)} {place : Location}
    (h : openTable t p = .ok (t', rows)) (hl : t'.locate true p = .ok place) : t'.Free place := by
  obtain ⟨place', hl', hf, rfl | rfl⟩ := openTable_free h
  · rw [hl'] at hl
    cases hl
    exact hf
  · rw [Tree.locate_put hl' hf] at hl
    cases hl
    exact Or.inr ⟨_, Tree.at?_put_self hf _⟩

theorem replaceRows_spec {t t' : Tree} {p : Path} {rows : List (List String)}
    (h : replaceRows t p rows = .ok t') :
    ∃ u old place, openTable t p = .ok (u, old) ∧ u.locate true p = .ok place ∧ u.Free place ∧
      t' = u.put place (.file (.table rows)) := by
  obtain ⟨⟨u, old⟩, ho, h⟩ := bind_eq_ok.mp h
  obtain ⟨place, hl, h⟩ := bind_eq_ok.mp h
  cases h
  have hl := mapError_eq_ok.mp hl
  exact ⟨u, old, place, ho, hl, free_openTable ho hl, rfl⟩

theorem openTable_replaceRows {t t' : Tree} {p : Path} {rows : List (List String)}
    (h : replaceRows t p rows = .ok t') : openTable t' p = .ok (t', rows) := by
  obtain ⟨u, old, place, -, hl, hf, rfl⟩ := replaceRows_spec h
  exact openTable_put hl hf

/-! ## Stores -/

theorem save_json {s' : Store} {t t' : Tree} {l : Ledger} {p : Path}
    (h : (Store.json p).save t l = .ok (s', t')) :
    s' = .json p ∧ Store.saveJson t l p = .ok t' := by
  obtain ⟨u, hs, h⟩ := map_eq_ok.mp (mapError_eq_ok.mp h)
  cases h
  exact ⟨rfl, hs⟩

theorem save_table {s' : Store} {t t' : Tree} {l : Ledger} {p : Path}
    (h : (Store.table p).save t l = .ok (s', t')) :
    s' = .table p ∧ replaceRows t p (toRows l) = .ok t' := by
  obtain ⟨u, hs, h⟩ := map_eq_ok.mp (mapError_eq_ok.mp h)
  cases h
  exact ⟨rfl, hs⟩

/-- What is loaded after a save is what was saved. -/
theorem load_of_save {s s' : Store} {t t' : Tree} {l : Ledger} (hn : (Assoc.keys l).Nodup)
    (h : s.save t l = .ok (s', t')) (now : String) : s'.load t' now = .ok l := by
  cases s with
  | memory entries saves => cases h; rfl
  | json p =>
    obtain ⟨rfl, hs⟩ := save_json h
    rw [Store.load, load_of_saveJson hn hs now]
    rfl
  | table p =>
    obtain ⟨rfl, hs⟩ := save_table h
    simp only [Store.load, openTable_replaceRows hs, Except.map, ofRows_toRows hn]
    rfl
  | transient => cases h

/-! ## The time of a load

The time counts as the last use of entries that name none. It makes no difference to the hashes. -/

theorem isSome_ofFields? (now now' : String) (v : JsonValue) :
    (ofFields? now v).isSome = (ofFields? now' v).isSome := by
  cases v with
  | object fields =>
    simp only [ofFields?]
    cases JsonValue.field? fields "ext" with
    | none => rfl
    | some ext =>
      cases JsonValue.field? fields "path" with
      | none => rfl
      | some path =>
        simp only [Option.bind_eq_bind, Option.bind_some]
        cases (JsonValue.field? fields "lastUsed").or (JsonValue.field? fields "last_used") <;>
          cases asText? ext <;> cases asText? path <;> rfl
  | _ => rfl

theorem map_mapM {α β γ : Type} {f f' : α → Option β} {g : β → γ}
    (h : ∀ a, (f a).map g = (f' a).map g) (as : List α) :
    (as.mapM f).map (List.map g) = (as.mapM f').map (List.map g) := by
  induction as with
  | nil => rfl
  | cons a as ih =>
    have ha := h a
    simp only [List.mapM_cons, Option.bind_eq_bind, Option.pure_def]
    revert ha ih
    cases f a <;> cases f' a <;> cases as.mapM f <;> cases as.mapM f' <;> simp +contextual

theorem keys_ofJson? (now now' : String) (v : JsonValue) :
    (ofJson? now v).map Assoc.keys = (ofJson? now' v).map Assoc.keys := by
  cases v with
  | object fields =>
    refine map_mapM (fun p => ?_) fields
    have hsome := isSome_ofFields? now now' p.2
    dsimp only
    revert hsome
    cases ofFields? now p.2 <;> cases ofFields? now' p.2 <;> simp
  | _ => rfl

theorem keys_load (s : Store) (t : Tree) (now now' : String) :
    (s.load t now).map Assoc.keys = (s.load t now').map Assoc.keys := by
  cases s with
  | json p =>
    simp only [Store.load, Store.loadJson, bind, Except.bind]
    cases t.pathExists p with
    | error e => rfl
    | ok found =>
      cases found with
      | false => rfl
      | true =>
        cases t.readText p with
        | error e => cases e <;> rfl
        | ok text =>
          have hkeys : (ofText? now text).map Assoc.keys = (ofText? now' text).map Assoc.keys := by
            simp only [ofText?, Option.bind_eq_bind]
            cases JsonValue.ofText? text with
            | none => rfl
            | some v => exact keys_ofJson? now now' v
          dsimp only [pure, Except.pure, Except.mapError, Except.map]
          revert hkeys
          cases ofText? now text <;> cases ofText? now' text <;> simp
  | _ => rfl

end DocumentMedia.Ledger

import DocumentMedia.Proofs.Ledger.Store
import Mathlib.Data.List.Forall2

/-! # Sequences of saves

A ledger is saved again and again, in memory, in a JSON file or in a table. After each save a store
gives back the ledger of that save, so that no sequence of saves tells stores apart. For tables this
comes from their key: all rows are deleted, and rows with distinct hashes can always be inserted. -/
namespace DocumentMedia.Ledger

open DocumentMedia.Files

/-! ## Tables with a key -/

/-- Rows of which no two have the same hash. -/
structure KeyedTable where
  rows : List (String × LedgerEntry)
  distinct : (Assoc.keys rows).Nodup

namespace KeyedTable

def deleteAll (_ : KeyedTable) : KeyedTable := ⟨[], List.nodup_nil⟩

theorem nodup_insert {rows : List (String × LedgerEntry)} (h : (Assoc.keys rows).Nodup)
    {row : String × LedgerEntry} (hrow : row.1 ∉ Assoc.keys rows) :
    (Assoc.keys (rows ++ [row])).Nodup := by
  rw [← Assoc.put_of_notMem hrow]
  exact Assoc.nodup_keys_put rows row.1 row.2 h

/-- Adds a row; one whose hash is taken is refused. -/
def insert? (k : KeyedTable) (row : String × LedgerEntry) : Option KeyedTable :=
  if h : row.1 ∈ Assoc.keys k.rows then none else some ⟨k.rows ++ [row], nodup_insert k.distinct h⟩

/-- The transaction that saves a ledger. A row that is refused undoes all of it. -/
def replace? (k : KeyedTable) (l : Ledger) : Option KeyedTable := l.foldlM insert? k.deleteAll

/-- The tables after each of a sequence of saves. -/
def replaceEach? (k : KeyedTable) : List Ledger → Option (List KeyedTable)
  | [] => some []
  | l :: ls => do
    let k ← k.replace? l
    return k :: (← k.replaceEach? ls)

/-- The ledger made of all rows. -/
def ledger (k : KeyedTable) : Ledger := Assoc.ofPairs k.rows

theorem insert?_of_notMem (k : KeyedTable) {row : String × LedgerEntry}
    (h : row.1 ∉ Assoc.keys k.rows) :
    ∃ k', k.insert? row = some k' ∧ k'.rows = k.rows ++ [row] := by
  rw [insert?, dif_neg h]
  exact ⟨_, rfl, rfl⟩

theorem insertAll_of_nodup {k : KeyedTable} {l : Ledger} (hn : (Assoc.keys (k.rows ++ l)).Nodup) :
    ∃ k', l.foldlM insert? k = some k' ∧ k'.rows = k.rows ++ l := by
  induction l generalizing k with
  | nil => exact ⟨k, rfl, (List.append_nil _).symm⟩
  | cons row rest ih =>
    have hrow : row.1 ∉ Assoc.keys k.rows := by
      intro hmem
      rw [Assoc.keys, List.map_append, List.nodup_append] at hn
      exact hn.2.2 row.1 hmem row.1 (by simp) rfl
    obtain ⟨u, hu, hrows⟩ := k.insert?_of_notMem hrow
    have hnext : u.rows ++ rest = k.rows ++ row :: rest := by
      rw [hrows, List.append_assoc, List.singleton_append]
    obtain ⟨k', hk', hrows'⟩ := ih (k := u) (hnext ▸ hn)
    refine ⟨k', ?_, hrows'.trans hnext⟩
    rw [List.foldlM_cons, hu]
    exact hk'

/-- Distinct hashes are never refused, and the table then holds one row for each entry. -/
theorem replace?_of_nodup (k : KeyedTable) {l : Ledger} (hn : (Assoc.keys l).Nodup) :
    ∃ k', k.replace? l = some k' ∧ k'.rows = l :=
  insertAll_of_nodup (k := k.deleteAll) hn

theorem ledger_eq_rows (k : KeyedTable) : k.ledger = k.rows := Assoc.ofPairs_of_nodup k.distinct

theorem replaceEach?_of_nodup (k : KeyedTable) {ls : List Ledger}
    (hn : ∀ l ∈ ls, (Assoc.keys l).Nodup) :
    ∃ ks, k.replaceEach? ls = some ks ∧ ks.map rows = ls := by
  induction ls generalizing k with
  | nil => exact ⟨[], rfl, rfl⟩
  | cons l ls ih =>
    rw [List.forall_mem_cons] at hn
    obtain ⟨u, hu, hrows⟩ := k.replace?_of_nodup hn.1
    obtain ⟨ks, hks, hall⟩ := ih u hn.2
    refine ⟨u :: ks, ?_, ?_⟩
    · rw [replaceEach?, hu]
      simp only [Option.bind_eq_bind, Option.bind_some, hks]
      rfl
    · rw [List.map_cons, hrows, hall]

end KeyedTable

/-! ## Stores -/

namespace Store

/-- The store and the files after each of a sequence of saves. -/
def saveEach (s : Store) (t : Tree) : List Ledger → Except StoreError (List (Store × Tree))
  | [] => .ok []
  | l :: ls => do
    let (s, t) ← s.save t l
    return (s, t) :: (← s.saveEach t ls)

/-- A store has a ledger, whenever it is asked. -/
def Has (l : Ledger) (st : Store × Tree) : Prop := ∀ now, st.1.load st.2 now = .ok l

theorem saveEach_cons {s : Store} {t : Tree} {l : Ledger} {ls : List Ledger}
    {after : List (Store × Tree)} (h : s.saveEach t (l :: ls) = .ok after) :
    ∃ st rest, s.save t l = .ok st ∧ st.1.saveEach st.2 ls = .ok rest ∧ after = st :: rest := by
  obtain ⟨st, hs, h⟩ := bind_eq_ok.mp h
  obtain ⟨rest, hrest, h⟩ := bind_eq_ok.mp h
  cases h
  exact ⟨st, rest, hs, hrest, rfl⟩

theorem has_each {s : Store} {t : Tree} {ls : List Ledger} {after : List (Store × Tree)}
    (hn : ∀ l ∈ ls, (Assoc.keys l).Nodup) (h : s.saveEach t ls = .ok after) :
    List.Forall₂ Has ls after := by
  induction ls generalizing s t after with
  | nil => cases h; exact .nil
  | cons l ls ih =>
    rw [List.forall_mem_cons] at hn
    obtain ⟨st, rest, hs, hrest, rfl⟩ := saveEach_cons h
    exact .cons (load_of_save hn.1 hs) (ih hn.2 hrest)

/-- Nothing in memory keeps a ledger from being saved. -/
theorem saveEach_memory (entries : Ledger) (saves : Nat) (t : Tree) (ls : List Ledger) :
    ∃ after, (Store.memory entries saves).saveEach t ls = .ok after := by
  induction ls generalizing entries saves with
  | nil => exact ⟨[], rfl⟩
  | cons l ls ih =>
    obtain ⟨rest, hrest⟩ := ih l (saves + 1)
    refine ⟨(.memory l (saves + 1), t) :: rest, ?_⟩
    simp only [saveEach, save, ok_bind, hrest]
    rfl

/-- The file of a table store holds the rows of a ledger. -/
def HoldsRows (p : Path) (l : Ledger) (st : Store × Tree) : Prop :=
  openTable st.2 p = .ok (st.2, toRows l)

theorem holdsRows_each {p : Path} {t : Tree} {ls : List Ledger} {after : List (Store × Tree)}
    (h : (Store.table p).saveEach t ls = .ok after) : List.Forall₂ (HoldsRows p) ls after := by
  induction ls generalizing t after with
  | nil => cases h; exact .nil
  | cons l ls ih =>
    obtain ⟨⟨s, u⟩, rest, hs, hrest, rfl⟩ := saveEach_cons h
    obtain ⟨rfl, hr⟩ := save_table hs
    exact .cons (openTable_replaceRows hr) (ih hrest)

/-- A sequence of saves leaves the same ledgers in all stores, one after each save: that of the
save. The table of a database goes through the same ledgers when its rows are deleted and inserted
one by one. -/
theorem stores_alike {ls : List Ledger} (hn : ∀ l ∈ ls, (Assoc.keys l).Nodup) {p q : Path}
    {t u : Tree} {inJson inTable : List (Store × Tree)}
    (hjson : (Store.json p).saveEach t ls = .ok inJson)
    (htable : (Store.table q).saveEach u ls = .ok inTable)
    (entries : Ledger) (saves : Nat) (v : Tree) (k : KeyedTable) :
    (∃ inMemory, (Store.memory entries saves).saveEach v ls = .ok inMemory ∧
      List.Forall₂ Has ls inMemory) ∧
    List.Forall₂ Has ls inJson ∧ List.Forall₂ Has ls inTable ∧
    ∃ ks, k.replaceEach? ls = some ks ∧ ks.map KeyedTable.ledger = ls ∧
      List.Forall₂ (fun k => HoldsRows q k.rows) ks inTable := by
  obtain ⟨inMemory, hmemory⟩ := saveEach_memory entries saves v ls
  obtain ⟨ks, hks, hrows⟩ := k.replaceEach?_of_nodup hn
  refine ⟨⟨inMemory, hmemory, has_each hn hmemory⟩, has_each hn hjson, has_each hn htable, ks, hks,
    ?_, ?_⟩
  · rw [funext KeyedTable.ledger_eq_rows]
    exact hrows
  · rw [← List.forall₂_map_left_iff, hrows]
    exact holdsRows_each htable

/-- Three ledgers in turn: one with quotes and letters of all kinds, none, and one entry. -/
def sampleLedgers : List Ledger :=
  [[("a\"\\\n", ⟨".mp4", "/é/\x00", "2024"⟩), ("", ⟨"", "𝄞", ""⟩)], [],
    [("b", ⟨".png", "/b", "2025"⟩)]]

def sampleJson : Store := .json (Path.ofString "x/ledger.json")

def sampleTable : Store := .table (Path.ofString "media.db")

theorem stores_alike_sample : ∃ inJson inTable,
    sampleJson.saveEach (Tree.empty []) sampleLedgers = .ok inJson ∧
    sampleTable.saveEach (Tree.empty []) sampleLedgers = .ok inTable ∧
    List.Forall₂ Has sampleLedgers inJson ∧ List.Forall₂ Has sampleLedgers inTable := by
  have hn : ∀ l ∈ sampleLedgers, (Assoc.keys l).Nodup := by decide +kernel
  obtain ⟨inJson, hjson⟩ := exists_of_isOk
    (x := sampleJson.saveEach (Tree.empty []) sampleLedgers) (by decide +kernel)
  obtain ⟨inTable, htable⟩ := exists_of_isOk
    (x := sampleTable.saveEach (Tree.empty []) sampleLedgers) (by decide +kernel)
  obtain ⟨-, hj, ht, -⟩ := stores_alike hn hjson htable [] 0 (Tree.empty []) ⟨[], List.nodup_nil⟩
  exact ⟨inJson, inTable, hjson, htable, hj, ht⟩

end Store

end DocumentMedia.Ledger

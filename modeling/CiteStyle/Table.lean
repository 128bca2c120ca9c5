/-!
Tables: values under distinct text keys, in the order in which the keys first came.

A later value for a key takes the place of the earlier one. Attributes of elements, options,
parts of date formats and macros are kept in tables.
-/

namespace CiteStyle

/-- Entries in order, no key twice. -/
@[ext]
structure Table (α : Type) where
  entries : List (String × α)
  distinct : (entries.map Prod.fst).Nodup
  deriving DecidableEq

namespace Table

variable {κ α : Type} [DecidableEq κ]

def empty : Table α := ⟨[], by simp⟩

instance : EmptyCollection (Table α) := ⟨empty⟩
instance : Inhabited (Table α) := ⟨empty⟩

def keys (t : Table α) : List String := t.entries.map Prod.fst

def size (t : Table α) : Nat := t.entries.length

def get? (t : Table α) (key : String) : Option α := t.entries.lookup key

def contains (t : Table α) (key : String) : Bool := (t.get? key).isSome

/-- Entries with the value of one key replaced, or added at the end. -/
def put (key : κ) (value : α) : List (κ × α) → List (κ × α)
  | [] => [(key, value)]
  | (k, v) :: rest => if k = key then (key, value) :: rest else (k, v) :: put key value rest

theorem mem_keys_put {key k : κ} {value : α} {l : List (κ × α)} :
    k ∈ (put key value l).map Prod.fst ↔ k = key ∨ k ∈ l.map Prod.fst := by
  induction l with
  | nil => simp [put]
  | cons e rest ih =>
    obtain ⟨k', v'⟩ := e
    by_cases h : k' = key
    · subst h; simp [put]
    · simp only [put, h, if_false, List.map_cons, List.mem_cons, ih]
      grind

theorem nodup_put {key : κ} {value : α} {l : List (κ × α)}
    (h : (l.map Prod.fst).Nodup) : ((put key value l).map Prod.fst).Nodup := by
  induction l with
  | nil => simp [put]
  | cons e rest ih =>
    obtain ⟨k', v'⟩ := e
    obtain ⟨hn, hr⟩ := List.nodup_cons.mp h
    by_cases hk : k' = key
    · subst hk; simpa [put] using h
    · simp only [put, hk, if_false, List.map_cons, List.nodup_cons]
      exact ⟨fun hm => (mem_keys_put.mp hm).elim hk hn, ih hr⟩

def insert (t : Table α) (key : String) (value : α) : Table α :=
  ⟨put key value t.entries, nodup_put t.distinct⟩

def insertNew (t : Table α) (key : String) (value : α) : Table α :=
  if t.contains key then t else t.insert key value

/-- The table of the given entries; a repeated key keeps its first place and last value. -/
def ofList (entries : List (String × α)) : Table α :=
  entries.foldl (fun t e => t.insert e.1 e.2) empty

def addMissing (t : Table α) (entries : List (String × α)) : Table α :=
  entries.foldl (fun t e => t.insertNew e.1 e.2) t

def erase (t : Table α) (key : String) : Table α :=
  ⟨t.entries.filter (·.1 != key), (t.distinct.sublist (List.filter_sublist.map _))⟩

def sorted (t : Table α) : List (String × α) :=
  t.entries.mergeSort fun a b => decide (a.1 ≤ b.1)

theorem put_of_not_mem {key : κ} {value : α} {l : List (κ × α)}
    (h : key ∉ l.map Prod.fst) : put key value l = l ++ [(key, value)] := by
  induction l with
  | nil => rfl
  | cons e rest ih =>
    obtain ⟨k, v⟩ := e
    rw [List.map_cons, List.mem_cons, not_or] at h
    rw [put, if_neg (Ne.symm h.1), ih h.2, List.cons_append]

theorem entries_foldl_insert {t : Table α} {l : List (String × α)}
    (h : ((t.entries ++ l).map Prod.fst).Nodup) :
    (l.foldl (fun t e => t.insert e.1 e.2) t).entries = t.entries ++ l := by
  induction l generalizing t with
  | nil => rw [List.foldl_nil, List.append_nil]
  | cons e rest ih =>
    obtain ⟨key, value⟩ := e
    have hput : (t.insert key value).entries = t.entries ++ [(key, value)] := by
      refine put_of_not_mem fun hm => ?_
      rw [List.map_append, List.nodup_append] at h
      exact h.2.2 key hm key List.mem_cons_self rfl
    rw [List.foldl_cons, ih, hput, List.append_assoc, List.singleton_append]
    rw [hput, List.append_assoc, List.singleton_append]
    exact h

/-- A table is the table of its own entries. -/
theorem ofList_entries (t : Table α) : ofList t.entries = t := by
  ext1
  have hnodup : (((empty : Table α).entries ++ t.entries).map Prod.fst).Nodup := t.distinct
  rw [ofList, entries_foldl_insert hnodup]
  rfl

theorem lookup_cons_eq [BEq κ] [LawfulBEq κ] (k key : κ) (value : α) (rest : List (κ × α)) :
    ((key, value) :: rest).lookup k = if k = key then some value else rest.lookup k := by
  by_cases h : k = key
  · simp [h]
  · have hb : (k == key) = false := by simpa using h
    simp [List.lookup_cons, hb, h]

theorem lookup_put [BEq κ] [LawfulBEq κ] {key k : κ} {value : α} {l : List (κ × α)} :
    (put key value l).lookup k = if k = key then some value else l.lookup k := by
  induction l with
  | nil => simp [put, lookup_cons_eq]
  | cons e rest ih =>
    obtain ⟨k', v'⟩ := e
    by_cases h : k' = key
    · subst h
      by_cases hk : k = k' <;> simp [put, lookup_cons_eq, hk]
    · by_cases hk : k = k'
      · subst hk; simp [put, h]
      · simp [put, h, lookup_cons_eq, hk, ih]

/-- Where no key comes twice, looking up is finding. -/
theorem lookup_eq_some_iff_mem {k : String} {value : α} {l : List (String × α)}
    (h : (l.map Prod.fst).Nodup) : l.lookup k = some value ↔ (k, value) ∈ l := by
  induction l with
  | nil => simp
  | cons e rest ih =>
    obtain ⟨k', v'⟩ := e
    obtain ⟨hn, hr⟩ := List.nodup_cons.mp h
    rw [lookup_cons_eq, List.mem_cons, Prod.mk.injEq]
    by_cases hk : k = k'
    · subst hk
      have hout : (k, value) ∉ rest := fun hm => hn (List.mem_map.mpr ⟨_, hm, rfl⟩)
      simp [hout, eq_comm]
    · rw [if_neg hk, ih hr]
      simp [hk]

@[simp] theorem get?_empty (k : String) : (empty : Table α).get? k = none := rfl

theorem get?_insert (t : Table α) (key k : String) (value : α) :
    (t.insert key value).get? k = if k = key then some value else t.get? k := lookup_put

theorem get?_insertNew (t : Table α) (key k : String) (value : α) :
    (t.insertNew key value).get? k = (t.get? k).or (if k = key then some value else none) := by
  unfold insertNew contains
  split
  · next h =>
    by_cases hk : k = key
    · subst hk
      obtain ⟨v, hv⟩ := Option.isSome_iff_exists.mp h
      rw [hv, Option.some_or]
    · rw [if_neg hk, Option.or_none]
  · next h => rw [get?_insert]; by_cases hk : k = key <;> simp_all

theorem get?_addMissing (t : Table α) (entries : List (String × α)) (k : String) :
    (t.addMissing entries).get? k = (t.get? k).or (entries.lookup k) := by
  induction entries generalizing t with
  | nil => simp [addMissing]
  | cons e rest ih =>
    obtain ⟨key, value⟩ := e
    have hs : t.addMissing ((key, value) :: rest) = (t.insertNew key value).addMissing rest := rfl
    rw [hs, ih, get?_insertNew, lookup_cons_eq]
    by_cases h : k = key <;> cases ht : t.get? k <;> simp [h]

theorem lookup_filter_ne (key k : String) (l : List (String × α)) :
    (l.filter (·.1 != key)).lookup k = if k = key then none else l.lookup k := by
  induction l with
  | nil => simp
  | cons e rest ih =>
    obtain ⟨k', v'⟩ := e
    by_cases h : k' = key
    · subst h
      rw [List.filter_cons_of_neg (by simp), ih, lookup_cons_eq]
      by_cases hk : k = k' <;> simp [hk]
    · rw [List.filter_cons_of_pos (by simpa using h), lookup_cons_eq, ih, lookup_cons_eq]
      by_cases hk : k = k'
      · subst hk; simp [h]
      · simp [hk]

theorem get?_erase (t : Table α) (key k : String) :
    (t.erase key).get? k = if k = key then none else t.get? k := lookup_filter_ne key k t.entries

theorem erase_comm (t : Table α) (a b : String) : (t.erase a).erase b = (t.erase b).erase a := by
  ext1
  simp only [erase, List.filter_filter]
  exact List.filter_congr fun e _ => Bool.and_comm _ _

theorem size_erase_lt {t : Table α} {key : String} {value : α} (h : t.get? key = some value) :
    (t.erase key).size < t.size := by
  have hm : ∃ e ∈ t.entries, ¬(e.1 != key) = true := by
    have := List.lookup_eq_some_iff.mp h
    obtain ⟨l, r, he, -⟩ := this
    exact ⟨(key, value), by simp [he], by simp⟩
  obtain ⟨e, he, hne⟩ := hm
  exact List.length_filter_lt_length_iff_exists.mpr ⟨e, he, hne⟩

end Table

end CiteStyle

import Mathlib.Data.List.AList
import Mathlib.Data.List.Perm.Subperm

/- Finite maps as a program uses them: looked up and written by key, and
   enumerated in an order nobody promises. `HashMap` is the bare map; an
   `Enumeration` is one way of ordering the keys, any rearrangement of them, so
   a result stated for every `Enumeration` holds whatever order the map is
   walked in. `Table key` is a map whose values carry their own key: a value can
   only be stored under the key it names, which is what a primary key or a map
   filled by `insert(v.id, v)` guarantees. -/
namespace ZeptoPM

/-- A finite map; no key is bound twice. -/
structure HashMap (K V : Type) where
  entries : AList (fun _ : K => V)

namespace HashMap
variable {K V : Type}

def empty : HashMap K V := ⟨∅⟩

def keys (m : HashMap K V) : List K := m.entries.keys

def len (m : HashMap K V) : Nat := m.keys.length

theorem keys_nodup (m : HashMap K V) : m.keys.Nodup := m.entries.keys_nodup

@[simp] theorem len_empty : (empty : HashMap K V).len = 0 := rfl

variable [DecidableEq K]

def get (m : HashMap K V) (k : K) : Option V := m.entries.lookup k

def insert (m : HashMap K V) (k : K) (v : V) : HashMap K V := ⟨m.entries.insert k v⟩

def remove (m : HashMap K V) (k : K) : HashMap K V := ⟨m.entries.erase k⟩

def contains (m : HashMap K V) (k : K) : Bool := (m.get k).isSome

@[simp] theorem get_empty (k : K) : (empty : HashMap K V).get k = none := rfl

theorem get_insert (m : HashMap K V) (k k' : K) (v : V) :
    (m.insert k v).get k' = if k' = k then some v else m.get k' := by
  unfold get insert
  split
  · rename_i h
    subst h
    exact AList.lookup_insert _
  · rename_i h
    exact AList.lookup_insert_ne h

theorem get_remove (m : HashMap K V) (k k' : K) :
    (m.remove k).get k' = if k' = k then none else m.get k' := by
  unfold get remove
  split
  · rename_i h
    subst h
    exact AList.lookup_erase _ _
  · rename_i h
    exact AList.lookup_erase_ne h

theorem get_of_get_remove {m : HashMap K V} {k k' : K} {v : V}
    (h : (m.remove k).get k' = some v) : k' ≠ k ∧ m.get k' = some v := by
  rw [get_remove] at h
  split at h
  · cases h
  · rename_i hk
    exact ⟨hk, h⟩

theorem contains_iff {m : HashMap K V} {k : K} : m.contains k = true ↔ ∃ v, m.get k = some v := by
  unfold contains
  exact Option.isSome_iff_exists

theorem mem_keys {m : HashMap K V} {k : K} : k ∈ m.keys ↔ ∃ v, m.get k = some v := by
  unfold keys get
  rw [← AList.mem_keys, ← AList.lookup_isSome, Option.isSome_iff_exists]

theorem get_eq_none_of_len {m : HashMap K V} (h : m.len = 0) (k : K) : m.get k = none := by
  cases hk : m.get k with
  | none => rfl
  | some v =>
    have hmem := mem_keys.mpr ⟨v, hk⟩
    rw [List.length_eq_zero_iff.mp h] at hmem
    cases hmem

theorem keys_insert (m : HashMap K V) (k : K) (v : V) :
    (m.insert k v).keys = k :: m.keys.erase k := AList.keys_insert _

theorem keys_remove (m : HashMap K V) (k : K) : (m.remove k).keys = m.keys.erase k :=
  AList.keys_erase _ _

theorem len_insert_le (m : HashMap K V) (k : K) (v : V) : (m.insert k v).len ≤ m.len + 1 := by
  unfold len
  rw [keys_insert, List.length_cons]
  exact Nat.succ_le_succ (List.length_erase_le ..)

theorem len_remove_le (m : HashMap K V) (k : K) : (m.remove k).len ≤ m.len := by
  unfold len
  rw [keys_remove]
  exact List.length_erase_le ..

/-- Distinct bound keys are no more than the map's length. -/
theorem length_le_len {m : HashMap K V} {ks : List K} (hd : ks.Nodup)
    (hb : ∀ k ∈ ks, ∃ v, m.get k = some v) : ks.length ≤ m.len :=
  (hd.subperm (fun k hk => mem_keys.mpr (hb k hk))).length_le

/-- A map with fewer keys is shorter. -/
theorem len_lt_len {m m' : HashMap K V} {k : K} {v : V}
    (hsub : ∀ k v, m'.get k = some v → ∃ v', m.get k = some v')
    (hget : m.get k = some v) (hnone : m'.get k = none) : m'.len < m.len := by
  have hnotin : k ∉ m'.keys := by
    intro hmem
    obtain ⟨v', hv'⟩ := mem_keys.mp hmem
    rw [hnone] at hv'
    cases hv'
  have hnodup : (k :: m'.keys).Nodup := List.nodup_cons.mpr ⟨hnotin, AList.keys_nodup _⟩
  refine length_le_len hnodup ?_
  intro k' hk'
  rcases List.mem_cons.mp hk' with rfl | hk'
  · exact ⟨v, hget⟩
  · obtain ⟨v', hv'⟩ := mem_keys.mp hk'
    exact hsub k' v' hv'

theorem remove_of_get_none {m : HashMap K V} {k : K} (h : m.get k = none) : m.remove k = m := by
  have hk : k ∉ m.entries.keys := by
    intro hmem
    obtain ⟨v, hv⟩ := mem_keys.mp (show k ∈ m.keys from hmem)
    rw [h] at hv
    cases hv
  unfold remove
  congr 1
  apply AList.ext
  exact List.kerase_of_notMem_keys hk

end HashMap

/-- An order in which a map may be enumerated: any rearrangement of its keys. -/
structure Enumeration (K : Type) where
  order : List K → List K
  perm : ∀ l, (order l).Perm l

/-- The enumeration that keeps the keys as they are listed. -/
def Enumeration.id {K : Type} : Enumeration K := ⟨fun l => l, fun _ => List.Perm.refl _⟩

namespace HashMap
variable {K V : Type}

/-- The keys in the order `e` visits them. -/
def keysIn (m : HashMap K V) (e : Enumeration K) : List K := e.order m.keys

theorem keysIn_nodup (m : HashMap K V) (e : Enumeration K) : (m.keysIn e).Nodup :=
  (e.perm m.keys).nodup_iff.mpr m.keys_nodup

variable [DecidableEq K]

/-- The values in the order `e` visits them. -/
def valuesIn (m : HashMap K V) (e : Enumeration K) : List V := (m.keysIn e).filterMap m.get

theorem mem_keysIn {m : HashMap K V} {e : Enumeration K} {k : K} :
    k ∈ m.keysIn e ↔ ∃ v, m.get k = some v :=
  (e.perm m.keys).mem_iff.trans mem_keys

theorem mem_valuesIn {m : HashMap K V} {e : Enumeration K} {v : V} :
    v ∈ m.valuesIn e ↔ ∃ k, m.get k = some v := by
  unfold valuesIn
  rw [List.mem_filterMap]
  refine ⟨?_, ?_⟩
  · intro h
    obtain ⟨k, _, hk⟩ := h
    exact ⟨k, hk⟩
  · intro h
    obtain ⟨k, hk⟩ := h
    exact ⟨k, mem_keysIn.mpr ⟨v, hk⟩, hk⟩

end HashMap

/-- A map whose values carry their own key: each value sits under the key it names. -/
structure Table {K V : Type} [DecidableEq K] (key : V → K) where
  map : HashMap K V
  keyed : ∀ k v, map.get k = some v → key v = k

namespace Table
variable {K V : Type} [DecidableEq K] {key : V → K}

def empty : Table key := ⟨HashMap.empty, fun _ _ h => by simp at h⟩

def get (t : Table key) (k : K) : Option V := t.map.get k

/-- `insert(key(v), v)`: adds the value, or replaces the one under its key. -/
def put (t : Table key) (v : V) : Table key where
  map := t.map.insert (key v) v
  keyed := by
    intro k w h
    rw [HashMap.get_insert] at h
    split at h
    · rename_i hk
      cases h
      exact hk.symm
    · exact t.keyed k w h

def remove (t : Table key) (k : K) : Table key where
  map := t.map.remove k
  keyed := by
    intro k' w h
    rw [HashMap.get_remove] at h
    split at h
    · cases h
    · exact t.keyed k' w h

/-- `if let Some(v) = get_mut(k) { f(v) }`, for an `f` that leaves the key alone. -/
def alter (t : Table key) (k : K) (f : V → V) (hf : ∀ v, key (f v) = key v) : Table key :=
  match h : t.get k with
  | none => t
  | some v =>
    { map := t.map.insert k (f v)
      keyed := by
        intro k' w hw
        rw [HashMap.get_insert] at hw
        split at hw
        · rename_i hk
          cases hw
          rw [hf, t.keyed k v h, hk]
        · exact t.keyed k' w hw }

def valuesIn (t : Table key) (e : Enumeration K) : List V := t.map.valuesIn e

@[simp] theorem get_empty (k : K) : (empty : Table key).get k = none := rfl

theorem key_of_get {t : Table key} {k : K} {v : V} (h : t.get k = some v) : key v = k :=
  t.keyed k v h

theorem get_of_notMem_keys {t : Table key} {k : K} (h : k ∉ t.map.keys) : t.get k = none := by
  cases hk : t.get k with
  | none => rfl
  | some v => exact absurd (HashMap.mem_keys.mpr ⟨v, hk⟩) h

theorem get_put (t : Table key) (v : V) (k : K) :
    (t.put v).get k = if k = key v then some v else t.get k := HashMap.get_insert ..

theorem get_remove (t : Table key) (k k' : K) :
    (t.remove k).get k' = if k' = k then none else t.get k' := HashMap.get_remove ..

theorem get_alter (t : Table key) (k k' : K) (f : V → V) (hf : ∀ v, key (f v) = key v) :
    (t.alter k f hf).get k' = if k' = k then (t.get k).map f else t.get k' := by
  unfold alter
  split
  · rename_i h
    split
    · rename_i hk
      rw [hk, h]
      rfl
    · rfl
  · rename_i v h
    show (t.map.insert k (f v)).get k' = _
    rw [HashMap.get_insert, h]
    rfl

theorem mem_valuesIn {t : Table key} {e : Enumeration K} {v : V} :
    v ∈ t.valuesIn e ↔ t.get (key v) = some v := by
  unfold valuesIn
  rw [HashMap.mem_valuesIn]
  refine ⟨?_, ?_⟩
  · intro h
    obtain ⟨k, hk⟩ := h
    have hkey := t.keyed k v hk
    subst hkey
    exact hk
  · intro h
    exact ⟨key v, h⟩

theorem valuesIn_nodup_keys (t : Table key) (e : Enumeration K) :
    ((t.valuesIn e).map key).Nodup := by
  have hsub : ∀ ks : List K, ((ks.filterMap t.map.get).map key).Sublist ks := by
    intro ks
    induction ks with
    | nil => exact List.Sublist.slnil
    | cons k ks ih =>
      rw [List.filterMap_cons]
      cases h : t.map.get k with
      | none => exact ih.cons k
      | some v =>
        rw [List.map_cons, t.keyed k v h]
        exact ih.cons_cons k
  exact (hsub _).nodup (t.map.keysIn_nodup e)

/-- Stores the values one after the other. -/
def putAll (t : Table key) (vs : List V) : Table key := vs.foldl put t

theorem get_putAll_of_notMem {t : Table key} {vs : List V} {k : K} (h : k ∉ vs.map key) :
    (t.putAll vs).get k = t.get k := by
  induction vs generalizing t with
  | nil => rfl
  | cons v vs ih =>
    rw [List.map_cons, List.mem_cons, not_or] at h
    show ((t.put v).putAll vs).get k = t.get k
    rw [ih h.2, get_put, if_neg h.1]

theorem get_putAll_of_mem {t : Table key} {vs : List V} (hd : (vs.map key).Nodup) {v : V}
    (hv : v ∈ vs) : (t.putAll vs).get (key v) = some v := by
  induction vs generalizing t with
  | nil => cases hv
  | cons w vs ih =>
    rw [List.map_cons, List.nodup_cons] at hd
    show ((t.put w).putAll vs).get (key v) = some v
    rcases List.mem_cons.mp hv with rfl | hmem
    · rw [get_putAll_of_notMem hd.1, get_put, if_pos rfl]
    · exact ih hd.2 hmem

/-- What a table holds after `putAll`: one of the stored values, or what it held. -/
theorem get_putAll_cases {t : Table key} {vs : List V} {k : K} {v : V}
    (h : (t.putAll vs).get k = some v) : v ∈ vs ∨ (k ∉ vs.map key ∧ t.get k = some v) := by
  induction vs generalizing t with
  | nil => exact Or.inr ⟨List.not_mem_nil, h⟩
  | cons w vs ih =>
    rcases ih (t := t.put w) h with hmem | ⟨hk, hget⟩
    · exact Or.inl (List.mem_cons_of_mem w hmem)
    · rw [get_put] at hget
      split at hget
      · cases hget
        exact Or.inl List.mem_cons_self
      · rename_i hne
        refine Or.inr ⟨?_, hget⟩
        rw [List.map_cons, List.mem_cons, not_or]
        exact ⟨hne, hk⟩

theorem get_putAll_isSome {t : Table key} {vs : List V} {k : K} (h : k ∈ vs.map key) :
    ((t.putAll vs).get k).isSome = true := by
  induction vs generalizing t with
  | nil => cases h
  | cons v vs ih =>
    show (((t.put v).putAll vs).get k).isSome = true
    by_cases hk : k ∈ vs.map key
    · exact ih hk
    · rw [get_putAll_of_notMem hk, get_put, if_pos ((List.mem_cons.mp h).resolve_right hk)]
      rfl

theorem mem_keys_filter {t : Table key} {e : Enumeration K} {p : V → Bool} {k : K} :
    k ∈ ((t.valuesIn e).filter p).map key ↔ (t.get k).any p = true := by
  rw [List.mem_map, Option.any_eq_true]
  refine ⟨?_, ?_⟩
  · intro h
    obtain ⟨v, hv, hk⟩ := h
    obtain ⟨hget, hp⟩ := List.mem_filter.mp hv
    rw [mem_valuesIn, hk] at hget
    exact ⟨v, hget, hp⟩
  · intro h
    obtain ⟨v, hget, hp⟩ := h
    have hk := key_of_get hget
    exact ⟨v, List.mem_filter.mpr ⟨mem_valuesIn.mpr (hk ▸ hget), hp⟩, hk⟩

/-- Storing what `f` makes of those values of another table that satisfy `p`, keys kept. -/
theorem get_putAll_filter {V' : Type} {key' : V' → K} (t' : Table key') (t : Table key)
    (e : Enumeration K) (p : V → Bool) (f : V → V') (hf : ∀ v, key' (f v) = key v) (k : K) :
    (t'.putAll (((t.valuesIn e).filter p).map f)).get k =
      if (t.get k).any p then (t.get k).map f else t'.get k := by
  have hkeys : (((t.valuesIn e).filter p).map f).map key' = ((t.valuesIn e).filter p).map key := by
    rw [List.map_map]
    exact List.map_congr_left (fun v _ => hf v)
  by_cases hk : (t.get k).any p = true
  · obtain ⟨v, hv, hvk⟩ := List.mem_map.mp (mem_keys_filter (e := e).mpr hk)
    have hget : t.get k = some v := hvk ▸ mem_valuesIn.mp (List.mem_filter.mp hv).1
    have hnd : ((((t.valuesIn e).filter p).map f).map key').Nodup := by
      rw [hkeys]
      exact (List.filter_sublist.map _).nodup (t.valuesIn_nodup_keys e)
    rw [if_pos hk, hget, ← hvk, ← hf]
    exact get_putAll_of_mem hnd (List.mem_map_of_mem hv)
  · rw [if_neg hk]
    refine get_putAll_of_notMem ?_
    rw [hkeys, mem_keys_filter]
    exact hk

/-- Storing what `f` makes of the values of another table, keys kept. -/
theorem get_putAll_values {V' : Type} (key' : V' → K) (t : Table key) (e : Enumeration K)
    (f : V → V') (hf : ∀ v, key' (f v) = key v) (k : K) :
    ((Table.empty : Table key').putAll ((t.valuesIn e).map f)).get k = (t.get k).map f := by
  have h := get_putAll_filter (Table.empty : Table key') t e (fun _ => true) f hf k
  rw [List.filter_true] at h
  rw [h]
  cases t.get k <;> rfl

/-- Removes the keys one after the other. -/
def removeAll (t : Table key) (ks : List K) : Table key := ks.foldl remove t

theorem get_removeAll {t : Table key} {ks : List K} {k : K} :
    (t.removeAll ks).get k = if k ∈ ks then none else t.get k := by
  induction ks generalizing t with
  | nil => rfl
  | cons a ks ih =>
    show ((t.remove a).removeAll ks).get k = _
    rw [ih, get_remove]
    by_cases hka : k = a
    · subst hka
      simp
    · simp [hka]

/-- Removing the keys of the values that satisfy `p` leaves the other values. -/
theorem get_removeAll_filter (t : Table key) (e : Enumeration K) (p : V → Bool) (k : K) :
    (t.removeAll (((t.valuesIn e).filter p).map key)).get k =
      (t.get k).filter (fun v => !p v) := by
  simp only [get_removeAll, mem_keys_filter]
  cases t.get k with
  | none => rfl
  | some v => cases hp : p v <;> simp [Option.filter, hp]

end Table

end ZeptoPM

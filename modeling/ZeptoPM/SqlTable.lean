import Mathlib.Algebra.Group.Nat.Defs
import ZeptoPM.HashMap

/- Relational tables as statements see them: a row binds values to column names,
   the first column is the primary key, `INSERT OR REPLACE` names its columns and
   binds its parameters by position, and `SELECT` reads columns back by name, in
   the order it lists them. `Images` relates such a table to a map of records: one
   row for each record, under the same key. What keeps the relation (writing a
   record, deleting by a column) and what it gives (reading every row yields the
   records) is proved here once, for any kind of record. -/
namespace ZeptoPM

/-! ## Tables that mirror each other -/

namespace Table
variable {K V V' : Type} [DecidableEq K] {key : V → K} {key' : V' → K}

/-- `t` holds what `f` makes of the values of `m`, under the same keys. -/
def Images (f : V → V') (m : Table key) (t : Table key') : Prop :=
  ∀ k, t.get k = (m.get k).map f

variable {f : V → V'} {m : Table key} {t : Table key'}

theorem images_empty (f : V → V') : Images f (empty : Table key) (empty : Table key') :=
  fun _ => rfl

/-- Writing a value, and its image. -/
theorem Images.put (h : Images f m t) (hf : ∀ v, key' (f v) = key v) (v : V) :
    Images f (m.put v) (t.put (f v)) := by
  intro k
  rw [get_put, get_put, hf]
  split
  · rfl
  · exact h k

/-- Writing what has become of a value in place, if it was there. -/
theorem Images.alter (h : Images f m t) (hf : ∀ v, key' (f v) = key v) (k : K) (g : V → V)
    (hg : ∀ v, key (g v) = key v) {v : V} (hv : m.get k = some v) :
    Images f (m.alter k g hg) (t.put (f (g v))) := by
  intro k'
  rw [get_put, get_alter, hf, hg, key_of_get hv]
  split
  · rw [hv]
    rfl
  · exact h k'

theorem alter_of_none {k : K} {g : V → V} {hg : ∀ v, key (g v) = key v} (h : m.get k = none) :
    m.alter k g hg = m := by
  unfold Table.alter
  split
  · rfl
  · rename_i v hv
    rw [h] at hv
    cases hv

theorem Images.remove (h : Images f m t) (k : K) : Images f (m.remove k) (t.remove k) := by
  intro k'
  rw [get_remove, get_remove]
  split
  · rfl
  · exact h k'

/-- Removing the values that satisfy `p`, and the rows that satisfy `q`. -/
theorem Images.removeAll (h : Images f m t) {p : V → Bool} {q : V' → Bool}
    (hpq : ∀ v, q (f v) = p v) (e e' : Enumeration K) :
    Images f (m.removeAll (((m.valuesIn e).filter p).map key))
      (t.removeAll (((t.valuesIn e').filter q).map key')) := by
  intro k
  rw [get_removeAll_filter, get_removeAll_filter, h k]
  cases m.get k with
  | none => rfl
  | some v =>
    simp only [Option.map_some, Option.filter, hpq]
    split <;> rfl

/-- Every row is the image of a value. -/
theorem Images.mem_values (h : Images f m t) {e : Enumeration K} {v' : V'}
    (hv : v' ∈ t.valuesIn e) : ∃ v, m.get (key' v') = some v ∧ f v = v' := by
  have hget := mem_valuesIn.mp hv
  rw [h] at hget
  exact Option.map_eq_some_iff.mp hget

/-- Reading every row back, and storing what is read, gives the values. -/
theorem Images.decoded (h : Images f m t) (hf : ∀ v, key' (f v) = key v) (dec : V' → Option V)
    (hdec : ∀ k v, m.get k = some v → dec (f v) = some v) (e : Enumeration K) :
    ∃ vs, (t.valuesIn e).mapM dec = some vs ∧
      ∀ k, ((empty : Table key).putAll vs).get k = m.get k := by
  -- the values that the rows of a list are images of, in the order of the rows
  have hread : ∀ l : List V', (∀ v' ∈ l, v' ∈ t.valuesIn e) → ∃ vs, l.mapM dec = some vs ∧
      vs.map f = l ∧ ∀ v ∈ vs, m.get (key v) = some v := by
    intro l
    induction l with
    | nil => exact fun _ => ⟨[], rfl, rfl, by simp⟩
    | cons v' l ih =>
      intro hl
      obtain ⟨v, hget, rfl⟩ := h.mem_values (hl v' List.mem_cons_self)
      rw [hf] at hget
      obtain ⟨vs, hvs, hmap, hmem⟩ := ih (fun x hx => hl x (List.mem_cons_of_mem _ hx))
      refine ⟨v :: vs, ?_, by rw [List.map_cons, hmap], ?_⟩
      · rw [List.mapM_cons, hdec _ v hget, hvs]
        rfl
      · intro x hx
        rcases List.mem_cons.mp hx with rfl | hx
        · exact hget
        · exact hmem x hx
  obtain ⟨vs, hvs, hmap, hmem⟩ := hread _ (fun _ hv => hv)
  have hkeys : vs.map key = (t.valuesIn e).map key' := by
    rw [← hmap, List.map_map]
    exact List.map_congr_left (fun v _ => (hf v).symm)
  refine ⟨vs, hvs, fun k => ?_⟩
  cases hk : m.get k with
  | none =>
    refine get_putAll_of_notMem ?_
    intro hmem'
    obtain ⟨v, hv, rfl⟩ := List.mem_map.mp hmem'
    rw [hmem v hv] at hk
    cases hk
  | some v =>
    have hkey := key_of_get hk
    have hv' : f v ∈ t.valuesIn e := by
      rw [mem_valuesIn, h, hf, hkey, hk]
      rfl
    have hin : k ∈ vs.map key := by
      rw [hkeys, ← hkey, ← hf]
      exact List.mem_map_of_mem hv'
    obtain ⟨x, hx, hxk⟩ := List.mem_map.mp hin
    have hget := hmem x hx
    rw [hxk, hk] at hget
    cases hget
    rw [← hxk]
    exact get_putAll_of_mem (hkeys ▸ t.valuesIn_nodup_keys e) hx

end Table

/-! ## Columns -/

/-- A value in a column; `R` is what a REAL column holds, `J` what the text of a JSON
column stands for. -/
inductive SqlValue (R J : Type) where
  | null
  | integer (n : Int)
  | real (x : R)
  | text (s : String)
  | json (v : J)

/-- A row: the value of each column, by name. -/
abbrev SqlRow (R J : Type) := List (String × SqlValue R J)

section
variable {R J : Type}

/-- The text of the first column. -/
def SqlRow.primaryKey : SqlRow R J → String
  | (_, .text k) :: _ => k
  | _ => ""

/-- The value of the named column. -/
def SqlRow.column (row : SqlRow R J) (name : String) : SqlValue R J := (row.lookup name).getD .null

abbrev SqlTable (R J : Type) := Table (SqlRow.primaryKey (R := R) (J := J))

/-- Whether the value is the text. -/
def SqlValue.isText (s : String) : SqlValue R J → Bool
  | .text t => t == s
  | _ => false

namespace SqlTable

/-- `INSERT OR REPLACE INTO t (columns) VALUES (params)`. -/
def insertOrReplace (t : SqlTable R J) (columns : List String) (params : List (SqlValue R J)) :
    SqlTable R J := t.put (columns.zip params)

/-- `SELECT columns FROM t`, in the order the database returns the rows. -/
def select (e : Enumeration String) (t : SqlTable R J) (columns : List String) :
    List (List (SqlValue R J)) :=
  (t.valuesIn e).map (fun row => columns.map row.column)

/-- `DELETE FROM t WHERE name = s`. -/
def deleteWhere (e : Enumeration String) (t : SqlTable R J) (name s : String) : SqlTable R J :=
  t.removeAll (((t.valuesIn e).filter (fun row => (row.column name).isText s)).map
    SqlRow.primaryKey)

end SqlTable

/-- Selecting the columns that were inserted gives the parameters. -/
theorem columns_zip {columns : List String} (hnd : columns.Nodup) :
    ∀ {params : List (SqlValue R J)}, params.length = columns.length →
      columns.map (SqlRow.column (columns.zip params)) = params := by
  induction columns with
  | nil =>
    intro params hlen
    rw [List.length_nil, List.length_eq_zero_iff] at hlen
    rw [hlen]
    rfl
  | cons c columns ih =>
    intro params hlen
    rw [List.nodup_cons] at hnd
    cases params with
    | nil => cases hlen
    | cons x params =>
      have hlen' : params.length = columns.length := Nat.succ.inj hlen
      have hhead : SqlRow.column ((c :: columns).zip (x :: params)) c = x := by
        simp [SqlRow.column]
      -- the columns after the first do not meet the first one's entry
      have htail : columns.map (SqlRow.column ((c :: columns).zip (x :: params))) =
          columns.map (SqlRow.column (columns.zip params)) := by
        apply List.map_congr_left
        intro d hd
        have hne : (d == c) = false := by
          rw [beq_eq_false_iff_ne]
          intro heq
          subst heq
          exact hnd.1 hd
        simp [SqlRow.column, List.lookup_cons, hne]
      rw [List.map_cons, hhead, htail, ih hnd.2 hlen']

/-! ## Reading a column -/

namespace SqlValue

def asString : SqlValue R J → Option String
  | .text s => some s
  | _ => none

def asJson : SqlValue R J → Option J
  | .json v => some v
  | _ => none

def asReal : SqlValue R J → Option R
  | .real x => some x
  | _ => none

/-- An `i64`. -/
def asInteger : SqlValue R J → Option Int
  | .integer n => some n
  | _ => none

/-- A `u32`; an integer that is none is refused. -/
def asU32 : SqlValue R J → Option Nat
  | .integer n => if 0 ≤ n ∧ n.toNat < 2 ^ 32 then some n.toNat else none
  | _ => none

/-- A column that may be NULL. -/
def asOption {α : Type} (f : SqlValue R J → Option α) : SqlValue R J → Option (Option α)
  | .null => some none
  | v => (f v).map some

/-- The value bound for an optional one. -/
def ofOption {α : Type} (f : α → SqlValue R J) : Option α → SqlValue R J
  | none => .null
  | some x => f x

theorem asU32_integer {n : Nat} (h : n < 2 ^ 32) :
    (SqlValue.integer (n : Int) : SqlValue R J).asU32 = some n := by
  have hn : (0 : Int) ≤ n ∧ (n : Int).toNat < 2 ^ 32 := ⟨Int.natCast_nonneg n, h⟩
  rw [asU32, if_pos hn, Int.toNat_natCast]

/-- An optional value is read back as it was bound. -/
theorem asOption_ofOption {α : Type} {f : SqlValue R J → Option α} {g : α → SqlValue R J}
    {o : Option α} (hg : ∀ x ∈ o, f (g x) = some x ∧ g x ≠ .null) :
    asOption f (ofOption g o) = some o := by
  cases o with
  | none => rfl
  | some x =>
    obtain ⟨hread, hne⟩ := hg x rfl
    show asOption f (g x) = some (some x)
    unfold asOption
    split
    · rename_i hnull
      exact absurd hnull hne
    · rw [hread]
      rfl

end SqlValue

end

end ZeptoPM

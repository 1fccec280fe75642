import Mathlib.Order.WithBot
import PagedQuery.Proofs.Query.Groups

/-!
# Ranks

The rows of a group are numbered in the order of a field, equal values in any
order. The last row with a value has as its number the number of rows that come
no later than the value: those that do not exceed it, and those without a value
if null comes first. So whether some row with a value has reached a number is
decided without the order of the rows.

* `exists_idxOf_iff`: numbers in a list in order;
* `cellRank`, `reachedIn`: the order of cells, and the rows up to a value;
* `partitionOf`, `Warehouse.rankOf`: the rows of a partition and their numbers;
* `Warehouse.exists_rankOf_iff`: the values with a number in a range.
-/

namespace PagedQuery

/-! ## Lists in order -/

section

variable {ι κ : Type} [DecidableEq ι] [LinearOrder κ] {value : ι → κ} {members : List ι}

/-- The members up to one of them are among those that do not exceed it. -/
theorem idxOf_succ_le_countP (hsorted : members.Pairwise fun i j => value i ≤ value j) {i : ι}
    (hi : i ∈ members) : members.idxOf i + 1 ≤ members.countP fun j => value j ≤ value i := by
  induction members with
  | nil => cases hi
  | cons first rest ih =>
    obtain ⟨hfirst, hrest⟩ := List.pairwise_cons.mp hsorted
    by_cases heq : first = i
    · subst heq
      simp
    · have hi : i ∈ rest := (List.mem_cons.mp hi).resolve_left (Ne.symm heq)
      rw [List.idxOf_cons_ne _ heq, List.countP_cons_of_pos (by simpa using hfirst i hi)]
      exact Nat.succ_le_succ (ih hrest hi)

/-- The last member with a value has all members before it that do not exceed the value. -/
theorem exists_idxOf_succ_eq_countP
    (hsorted : members.Pairwise fun i j => value i ≤ value j) (hnodup : members.Nodup) {i : ι}
    (hi : i ∈ members) :
    ∃ j ∈ members, value j = value i ∧
      members.idxOf j + 1 = members.countP fun j => value j ≤ value i := by
  induction members generalizing i with
  | nil => cases hi
  | cons first rest ih =>
    obtain ⟨hfirst, hrest⟩ := List.pairwise_cons.mp hsorted
    obtain ⟨hnot, hnodup⟩ := List.nodup_cons.mp hnodup
    by_cases hlater : ∃ j ∈ rest, value j = value i
    · obtain ⟨j, hj, hvalue⟩ := hlater
      obtain ⟨k, hk, hlast, hcount⟩ := ih hrest hnodup hj
      have hne : first ≠ k := fun heq => hnot (heq ▸ hk)
      have hle : value first ≤ value i := hvalue ▸ hfirst j hj
      refine ⟨k, List.mem_cons_of_mem _ hk, hlast.trans hvalue, ?_⟩
      rw [List.idxOf_cons_ne _ hne, List.countP_cons_of_pos (by simpa using hle), ← hvalue,
        ← hcount]
    · have heq : first = i := by
        rcases List.mem_cons.mp hi with heq | hi
        · exact heq.symm
        · exact absurd ⟨i, hi, rfl⟩ hlater
      subst heq
      refine ⟨first, List.mem_cons_self, rfl, ?_⟩
      have hbeyond : rest.countP (fun j => value j ≤ value first) = 0 := by
        rw [List.countP_eq_zero]
        intro j hj hle
        exact hlater ⟨j, hj, le_antisymm (of_decide_eq_true hle) (hfirst j hj)⟩
      rw [List.idxOf_cons_self, List.countP_cons_of_pos (by simp), hbeyond]

/-- A member with a value has a number in an upward closed set if and only if that set has the
number of members that do not exceed the value. -/
theorem exists_idxOf_iff {P : Nat → Prop} (hP : ∀ m n, m ≤ n → P m → P n)
    (hsorted : members.Pairwise fun i j => value i ≤ value j) (hnodup : members.Nodup) (a : κ) :
    (∃ i ∈ members, value i = a ∧ P (members.idxOf i + 1)) ↔
      (∃ i ∈ members, value i = a) ∧ P (members.countP fun j => value j ≤ a) := by
  constructor
  · rintro ⟨i, hi, rfl, hP'⟩
    exact ⟨⟨i, hi, rfl⟩, hP _ _ (idxOf_succ_le_countP hsorted hi) hP'⟩
  · rintro ⟨⟨i, hi, rfl⟩, hP'⟩
    obtain ⟨j, hj, hvalue, hcount⟩ := exists_idxOf_succ_eq_countP hsorted hnodup hi
    exact ⟨j, hj, hvalue, hcount ▸ hP'⟩

end

/-! ## Partitions -/

section

variable {α κ : Type} [DecidableEq κ]

/-- The positions of the rows with the key of a row. -/
def partitionOf (key : α → κ) (rows : List α) (i : Nat) : List Nat :=
  (List.range rows.length).filter fun j => rows[j]?.map key = rows[i]?.map key

variable {key : α → κ} {rows : List α} {i : Nat} {row : α}

theorem map_partitionOf (key : α → κ) (hrow : rows[i]? = some row) :
    (partitionOf key rows i).map (rows[·]?) =
      (rows.filter fun other => key other = key row).map some := by
  have hrows : (List.range rows.length).map (rows[·]?) = rows.map some := by
    refine List.ext_getElem? fun j => ?_
    rw [List.getElem?_map, List.getElem?_map]
    by_cases hj : j < rows.length <;> simp [hj]
  have hfilter := congrArg
    (List.filter fun found : Option α => found.map key = some (key row)) hrows
  rw [List.filter_map, List.filter_map] at hfilter
  rw [partitionOf, hrow]
  refine hfilter.trans (congrArg (List.map some) (List.filter_congr fun other _ => ?_))
  simp

theorem mem_partitionOf_iff (hrow : rows[i]? = some row) {j : Nat} :
    j ∈ partitionOf key rows i ↔ ∃ other, rows[j]? = some other ∧ key other = key row := by
  rw [partitionOf, List.mem_filter, List.mem_range, hrow, Option.map_some, decide_eq_true_iff,
    Option.map_eq_some_iff, and_iff_right_of_imp]
  rintro ⟨other, hother, -⟩
  exact (List.getElem?_eq_some_iff.mp hother).1

theorem nodup_partitionOf (key : α → κ) (rows : List α) (i : Nat) :
    (partitionOf key rows i).Nodup :=
  List.nodup_range.filter _

end

/-! ## Ranks of rows -/

section

variable {δ κ : Type}

/-- A cell in the order in which null comes before all data, or after them. -/
def cellRank (nullFirst : Bool) (cell : Option δ) : WithBot (WithTop δ) :=
  cell.elim (if nullFirst then ⊥ else ((⊤ : WithTop δ) : WithBot (WithTop δ)))
    fun datum => ((datum : WithTop δ) : WithBot (WithTop δ))

theorem cellRank_eq_some_iff {nullFirst : Bool} {cell : Option δ} {datum : δ} :
    cellRank nullFirst cell = cellRank nullFirst (some datum) ↔ cell = some datum := by
  cases cell <;> cases nullFirst <;> simp [cellRank]

theorem mem_dataOf_filter_iff [DecidableEq κ] {key : Row δ → κ} {rows : List (Row δ)}
    {field : String} {k : κ} {datum : δ} :
    datum ∈ dataOf (rows.filter fun row => key row = k) field ↔
      ∃ (i : Nat) (row : Row δ), rows[i]? = some row ∧ key row = k ∧
        Row.cell row field = some datum := by
  constructor
  · intro hdatum
    obtain ⟨row, hrow, hcell⟩ := List.mem_filterMap.mp hdatum
    obtain ⟨hrow, hkey⟩ := List.mem_filter.mp hrow
    obtain ⟨i, hi⟩ := List.getElem?_of_mem hrow
    exact ⟨i, row, hi, of_decide_eq_true hkey, hcell⟩
  · rintro ⟨i, row, hi, hkey, hcell⟩
    exact List.mem_filterMap.mpr
      ⟨row, List.mem_filter.mpr ⟨List.mem_of_getElem? hi, decide_eq_true hkey⟩, hcell⟩

variable [LinearOrder δ] [DecidableEq κ]

/-- The number of rows that come no later than a datum: those whose data do not exceed it, and
those with null if null comes first. -/
def reachedIn (nullFirst : Bool) (rows : List (Row δ)) (field : String) (datum : δ) : Nat :=
  rows.countP fun row => (Row.cell row field).elim nullFirst (· ≤ datum)

theorem cellRank_le_some_iff {nullFirst : Bool} {cell : Option δ} {datum : δ} :
    cellRank nullFirst cell ≤ cellRank nullFirst (some datum) ↔
      cell.elim nullFirst (· ≤ datum) = true := by
  cases cell <;> cases nullFirst <;> simp [cellRank]

theorem not_keyBefore_ascending_iff {nullsFirst : Direction → Bool} {as bs : List (Option δ)} :
    keyBefore nullsFirst [.ascending] bs as = false ↔
      cellRank (nullsFirst .ascending) as.head?.join ≤
        cellRank (nullsFirst .ascending) bs.head?.join := by
  generalize hcell : as.head?.join = a
  generalize hcell' : bs.head?.join = b
  generalize hnulls : nullsFirst .ascending = nullFirst
  cases a <;> cases b <;> cases nullFirst <;>
    simp [keyBefore, cellBefore, cellRank, hcell, hcell', hnulls]

/-- The number of a row among the rows with its key, in the order of a field. -/
def Warehouse.rankOf (db : Warehouse δ) (orderBy : List (Expr × Direction)) (key : Row δ → κ)
    (rows : List (Row δ)) (field : String) (i : Nat) : Nat :=
  (db.arrange orderBy (partitionOf key rows i) fun j =>
    (rows[j]?.map fun row => [Row.cell row field]).getD []).idxOf i + 1

variable {db : Warehouse δ} {key : Row δ → κ} {rows : List (Row δ)} {field : String}

/-- The rows of a partition come in the order of their cells. -/
theorem Warehouse.pairwise_arrange (db : Warehouse δ) {orderBy : List (Expr × Direction)}
    (horderBy : orderBy.map Prod.snd = [.ascending]) (members : List Nat) (cellOf : Nat → Option δ)
    (sortKey : Nat → List (Option δ)) (hsortKey : ∀ i, (sortKey i).head?.join = cellOf i) :
    (db.arrange orderBy members sortKey).Pairwise fun i j =>
      cellRank (db.nullsFirst .ascending) (cellOf i) ≤
        cellRank (db.nullsFirst .ascending) (cellOf j) := by
  refine (db.arrange_pairwise orderBy members sortKey).imp fun hbefore => ?_
  rw [horderBy, not_keyBefore_ascending_iff, hsortKey, hsortKey] at hbefore
  exact hbefore

theorem countP_partitionOf (nullFirst : Bool) {i : Nat} {row : Row δ}
    (hrow : rows[i]? = some row) (datum : δ) :
    (partitionOf key rows i).countP (fun j =>
        cellRank nullFirst (rows[j]?.bind (Row.cell · field)) ≤ cellRank nullFirst (some datum)) =
      reachedIn nullFirst (rows.filter fun other => key other = key row) field datum := by
  have hcount := congrArg
    (List.countP fun found : Option (Row δ) =>
      decide (cellRank nullFirst (found.bind (Row.cell · field)) ≤ cellRank nullFirst (some datum)))
    (map_partitionOf key hrow)
  rw [List.countP_map, List.countP_map] at hcount
  refine hcount.trans (List.countP_congr fun other _ => ?_)
  rw [Function.comp_apply, Option.bind_some, decide_eq_true_iff, cellRank_le_some_iff]

/-- A datum on a row with a key has a number in an upward closed set if and only if that set has
the number of rows with the key that come no later than the datum. -/
theorem Warehouse.exists_rankOf_iff (db : Warehouse δ) (key : Row δ → κ) (rows : List (Row δ))
    (field : String) {orderBy : List (Expr × Direction)}
    (horderBy : orderBy.map Prod.snd = [.ascending])
    {P : Nat → Prop} (hP : ∀ m n, m ≤ n → P m → P n) (k : κ) (datum : δ) :
    (∃ i row, rows[i]? = some row ∧ key row = k ∧ Row.cell row field = some datum ∧
        P (db.rankOf orderBy key rows field i)) ↔
      datum ∈ dataOf (rows.filter fun row => key row = k) field ∧
        P (reachedIn (db.nullsFirst .ascending) (rows.filter fun row => key row = k) field
          datum) := by
  by_cases hgroup : ∃ (i : Nat) (row : Row δ), rows[i]? = some row ∧ key row = k
  case neg =>
    refine iff_of_false ?_ ?_
    · rintro ⟨i, row, hrow, hkey, -⟩
      exact hgroup ⟨i, row, hrow, hkey⟩
    · rintro ⟨hdatum, -⟩
      obtain ⟨i, row, hrow, hkey, -⟩ := mem_dataOf_filter_iff.mp hdatum
      exact hgroup ⟨i, row, hrow, hkey⟩
  -- All rows with the key have the same partition, that of the first one.
  obtain ⟨first, firstRow, hfirst, rfl⟩ := hgroup
  let cellOf (i : Nat) : Option δ := rows[i]?.bind (Row.cell · field)
  let sortKey (j : Nat) := (rows[j]?.map fun row => [Row.cell row field]).getD []
  let members := db.arrange orderBy (partitionOf key rows first) sortKey
  have hperm : members.Perm (partitionOf key rows first) := db.arrange_perm ..
  have hsortKey (i : Nat) : (sortKey i).head?.join = cellOf i := by
    cases hrow : rows[i]? <;> simp [sortKey, cellOf, hrow]
  let rank (i : Nat) := cellRank (db.nullsFirst .ascending) (cellOf i)
  have hmember (i : Nat) :
      (i ∈ members ∧ rank i = cellRank (db.nullsFirst .ascending) (some datum)) ↔
        ∃ row, rows[i]? = some row ∧ key row = key firstRow ∧ Row.cell row field = some datum := by
    rw [hperm.mem_iff, mem_partitionOf_iff hfirst, cellRank_eq_some_iff]
    dsimp only [cellOf]
    cases rows[i]? <;> simp
  have hrank {i : Nat} {row : Row δ} (hrow : rows[i]? = some row) (hkey : key row = key firstRow) :
      db.rankOf orderBy key rows field i = members.idxOf i + 1 := by
    rw [rankOf, partitionOf, hrow, Option.map_some, hkey, ← Option.map_some, ← hfirst]
    rfl
  have hranks := exists_idxOf_iff hP (db.pairwise_arrange horderBy _ cellOf sortKey hsortKey)
    (hperm.nodup_iff.mpr (nodup_partitionOf ..)) (cellRank (db.nullsFirst .ascending) (some datum))
  rw [hperm.countP_eq, countP_partitionOf _ hfirst] at hranks
  rw [mem_dataOf_filter_iff]
  constructor
  · rintro ⟨i, row, hrow, hkey, hcell, hP'⟩
    obtain ⟨hi, hvalue⟩ := (hmember i).mpr ⟨row, hrow, hkey, hcell⟩
    rw [hrank hrow hkey] at hP'
    exact ⟨⟨i, row, hrow, hkey, hcell⟩, (hranks.mp ⟨i, hi, hvalue, hP'⟩).2⟩
  · rintro ⟨⟨i, row, hrow, hkey, hcell⟩, hP'⟩
    obtain ⟨hi, hvalue⟩ := (hmember i).mpr ⟨row, hrow, hkey, hcell⟩
    obtain ⟨j, hj, hvalue, hP'⟩ := hranks.mpr ⟨⟨i, hi, hvalue⟩, hP'⟩
    obtain ⟨row, hrow, hkey, hcell⟩ := (hmember j).mp ⟨hj, hvalue⟩
    exact ⟨j, row, hrow, hkey, hcell, hrank hrow hkey ▸ hP'⟩

end

end PagedQuery

import Mathlib.Algebra.BigOperators.Group.List.Basic
import Mathlib.Algebra.Order.Ring.Nat
import Mathlib.Data.List.AList

/-! The values of association lists: what an insertion adds and what an erasure takes away. -/
namespace Tables

variable {κ α β : Type} [DecidableEq κ]

abbrev Table (κ α : Type) := AList fun _ : κ => α

def values (t : Table κ α) : List α := t.entries.map Sigma.snd

variable {t : Table κ α} {k k' : κ} {v : α}

omit [DecidableEq κ] in
@[simp] theorem values_empty : values (∅ : Table κ α) = [] := rfl

theorem values_insert_eq (k : κ) (v : α) (t : Table κ α) :
    values (t.insert k v) = v :: values (t.erase k) := rfl

theorem erase_of_not_mem (h : k ∉ t) : t.erase k = t :=
  AList.ext (List.kerase_of_notMem_keys h)

theorem values_insert (h : k ∉ t) : values (t.insert k v) = v :: values t := by
  rw [values_insert_eq, erase_of_not_mem h]

theorem erase_insert (k : κ) (v : α) (t : Table κ α) : (t.insert k v).erase k = t.erase k :=
  AList.ext (List.kerase_cons_eq rfl)

/-- What a key held comes out with it. -/
theorem values_erase (h : t.lookup k = some v) : (values t).Perm (v :: values (t.erase k)) := by
  have hentry : (⟨k, v⟩ : Sigma fun _ : κ => α) ∈ t.entries := AList.mem_lookup_iff.mp h
  obtain ⟨w, before, after, hbefore, heq, herase⟩ :=
    List.exists_of_kerase (List.mem_keys_of_mem hentry)
  have hw : w = v := by
    have hlookup : t.lookup k = some w :=
      AList.mem_lookup_iff.mpr (heq ▸ List.mem_append_right _ (List.mem_cons_self ..))
    exact Option.some.inj (hlookup.symm.trans h)
  have hvalues : values t = before.map Sigma.snd ++ v :: after.map Sigma.snd := by
    unfold values
    rw [heq, hw, List.map_append, List.map_cons]
  have hrest : values (t.erase k) = before.map Sigma.snd ++ after.map Sigma.snd := by
    change (List.kerase k t.entries).map Sigma.snd = _
    rw [herase, List.map_append]
  rw [hvalues, hrest]
  exact List.perm_middle

theorem lookup_some_of_mem (h : k ∈ t) : ∃ v, t.lookup k = some v :=
  Option.isSome_iff_exists.mp (AList.lookup_isSome.mpr h)

theorem mem_of_lookup (h : t.lookup k = some v) : k ∈ t :=
  AList.lookup_isSome.mp (by rw [h]; rfl)

theorem mem_values (h : t.lookup k = some v) : v ∈ values t :=
  (values_erase h).mem_iff.mpr (List.mem_cons_self ..)

/-- The sum of a table of counts, seen from one key. -/
theorem sum_values (t : Table κ ℕ) (k : κ) :
    (values t).sum = (t.lookup k).getD 0 + (values (t.erase k)).sum := by
  cases hk : t.lookup k with
  | none =>
    rw [erase_of_not_mem (AList.lookup_eq_none.mp hk)]
    exact (Nat.zero_add _).symm
  | some n =>
    rw [(values_erase hk).sum_eq, List.sum_cons]
    rfl

end Tables

import Mathlib.Algebra.GroupWithZero.Nat
import Mathlib.Algebra.Order.Group.Nat
import Mathlib.Algebra.BigOperators.Group.List.Basic
import Mathlib.Algebra.Order.BigOperators.Group.List
import Mathlib.Data.List.AList
import Mathlib.Data.List.Sort
import Mathlib.Data.String.Basic

namespace PolicyEngine.File

abbrev Directory := AList fun _ : String ↦ List UInt8

namespace Directory

variable (d : Directory) (p : String → Bool) (name : String) (data : List UInt8)

def write : Directory := d.insert name ((d.lookup name).getD [] ++ data)

def rename (new : String) : Directory :=
  match d.lookup name with
  | some data => (d.erase name).insert new data
  | none => d

/-- `os.ReadDir`: the names in their order. -/
def readDir : List String := d.keys.insertionSort (· ≤ ·)

def fileSize : ℕ := ((d.lookup name).getD []).length

def size : ℕ := (d.entries.map fun f ↦ if p f.1 then f.2.length else 0).sum

def total (weight : String → List UInt8 → ℕ) : ℕ := (d.entries.map fun f ↦ weight f.1 f.2).sum

variable {d p name data} {weight : String → List UInt8 → ℕ}

theorem size_eq_total :
    size d p = total d fun name data ↦ if p name then data.length else 0 := rfl

theorem fileSize_of_mem {f : Sigma fun _ : String ↦ List UInt8} (h : f ∈ d.entries) :
    fileSize d f.1 = f.2.length := by
  have hlookup : d.lookup f.1 = some f.2 := AList.mem_lookup_iff.mpr h
  rw [fileSize, hlookup, Option.getD_some]

theorem sum_readDir :
    (((readDir d).filter p).map (fileSize d)).sum = size d p := by
  have hperm : (((readDir d).filter p).map (fileSize d)).Perm
      ((d.keys.filter p).map (fileSize d)) :=
    ((List.perm_insertionSort _ _).filter p).map _
  rw [hperm.sum_eq, size]
  have hkeys : d.keys = d.entries.map Sigma.fst := rfl
  rw [hkeys]
  have hsizes : ∀ f ∈ d.entries, fileSize d f.1 = f.2.length := fun f hf ↦ fileSize_of_mem hf
  generalize d.entries = entries at hsizes
  induction entries with
  | nil => rfl
  | cons _ _ ih =>
    obtain ⟨hf, hentries⟩ := List.forall_mem_cons.mp hsizes
    rw [List.map_cons, List.map_cons, List.sum_cons, ← ih hentries, List.filter_cons]
    split_ifs with hp
    · rw [List.map_cons, List.sum_cons, hf]
    · rw [Nat.zero_add]

theorem size_le_size_all : size d p ≤ size d fun _ ↦ true := by
  apply List.sum_le_sum
  intro _ _
  simp only [if_true]
  split_ifs <;> simp

theorem total_erase :
    total (d.erase name) weight + (d.lookup name).elim 0 (weight name) = total d weight := by
  change ((List.kerase name d.entries).map fun f ↦ weight f.1 f.2).sum + _ = _
  by_cases h : name ∈ d
  · obtain ⟨data, front, back, -, hentries, herase⟩ := List.exists_of_kerase h
    have hlookup : d.lookup name = some data := AList.mem_lookup_iff.mpr (by simp [hentries])
    rw [herase, hlookup, total, hentries]
    simp only [List.map_append, List.sum_append, List.map_cons, List.sum_cons, Option.elim_some]
    omega
  · rw [List.kerase_of_notMem_keys h, AList.lookup_eq_none.mpr h]
    rfl

theorem total_insert : total (d.insert name data) weight + (d.lookup name).elim 0 (weight name) =
    weight name data + total d weight := by
  rw [total, AList.entries_insert, List.map_cons, List.sum_cons, Nat.add_assoc]
  exact congrArg (weight name data + ·) total_erase

theorem total_rename {new : String} (hlookup : d.lookup name = some data) (hnew : new ∉ d) :
    total (rename d name new) weight + weight name data = weight new data + total d weight := by
  have hnone : (d.erase name).lookup new = none := by
    rw [AList.lookup_eq_none, AList.mem_erase, not_and_or]
    exact .inr hnew
  have hinsert : total ((d.erase name).insert new data) weight + _ = _ := total_insert
  have herase : total (d.erase name) weight + _ = _ := total_erase
  rw [hnone, Option.elim_none, Nat.add_zero] at hinsert
  rw [hlookup, Option.elim_some] at herase
  have hrename : rename d name new = (d.erase name).insert new data := by rw [rename, hlookup]
  rw [hrename, hinsert, Nat.add_assoc, herase]

theorem elim_eq_zero (h : ∀ data, weight name data = 0) :
    (d.lookup name).elim 0 (weight name) = 0 := by
  cases d.lookup name with
  | none => rfl
  | some data => exact h data

theorem total_erase_of_zero (h : ∀ data, weight name data = 0) :
    total (d.erase name) weight = total d weight := by
  have herase : total (d.erase name) weight + _ = _ := total_erase
  rwa [elim_eq_zero h, Nat.add_zero] at herase

theorem total_insert_of_zero (h : ∀ data, weight name data = 0) :
    total (d.insert name data) weight = total d weight := by
  have hinsert : total (d.insert name data) weight + _ = _ := total_insert
  rwa [elim_eq_zero h, h, Nat.add_zero, Nat.zero_add] at hinsert

theorem size_erase_le : size (d.erase name) p ≤ size d p := by
  rw [size_eq_total, size_eq_total]
  exact Nat.le.intro total_erase

theorem size_insert_le :
    size (d.insert name data) p ≤ (if p name then data.length else 0) + size d p := by
  rw [size_eq_total, size_eq_total]
  exact Nat.le.intro total_insert

theorem lookup_rename {new : String} (hlookup : d.lookup name = some data) :
    (rename d name new).lookup new = some data := by
  rw [rename, hlookup]
  exact AList.lookup_insert _

theorem lookup_rename_ne {new other : String} (hnew : other ≠ new) (hname : other ≠ name) :
    (rename d name new).lookup other = d.lookup other := by
  unfold rename
  split
  · rw [AList.lookup_insert_ne hnew, AList.lookup_erase_ne hname]
  · rfl

theorem size_rename_le {new : String} (hlookup : d.lookup name = some data) :
    size (rename d name new) p ≤ data.length + size d p := by
  rw [rename, hlookup]
  refine size_insert_le.trans (Nat.add_le_add ?_ size_erase_le)
  split_ifs <;> simp

end Directory

end PolicyEngine.File

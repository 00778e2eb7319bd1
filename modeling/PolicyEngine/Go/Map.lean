import Mathlib.Data.List.AList
import Mathlib.Tactic.SplitIfs

namespace PolicyEngine.Go

variable {β : Type}

abbrev Map (β : Type) := AList fun _ : String ↦ β

namespace Map

def ofList (entries : List (String × β)) : Map β :=
  entries.foldl (fun m e ↦ m.insert e.1 e.2) ∅

def get (m : Map β) (zero : β) (k : String) : β := (m.lookup k).getD zero

theorem get_insert (m : Map β) (zero b : β) (k : String) : get (m.insert k b) zero k = b := by
  simp [get]

theorem get_insert_ne (m : Map β) (zero b : β) {k k' : String} (h : k' ≠ k) :
    get (m.insert k b) zero k' = get m zero k' := by
  simp [get, AList.lookup_insert_ne h]

theorem get_of_notMem {m : Map β} {k : String} (h : k ∉ m) (zero : β) : get m zero k = zero := by
  simp [get, AList.lookup_eq_none.mpr h]

theorem lookup_foldl_insert_of_notMem {entries : List (String × β)} (m : Map β) {k : String}
    (h : k ∉ entries.map Prod.fst) :
    (entries.foldl (fun m e ↦ m.insert e.1 e.2) m).lookup k = m.lookup k := by
  induction entries generalizing m with
  | nil => rfl
  | cons _ _ ih =>
    rw [List.map_cons, List.mem_cons, not_or] at h
    rw [List.foldl_cons, ih _ h.2, AList.lookup_insert_ne h.1]

theorem lookup_foldl_insert {entries : List (String × β)} (m : Map β) {k : String} {b : β}
    (hnodup : (entries.map Prod.fst).Nodup) (hmem : (k, b) ∈ entries) :
    (entries.foldl (fun m e ↦ m.insert e.1 e.2) m).lookup k = some b := by
  induction entries generalizing m with
  | nil => cases hmem
  | cons _ _ ih =>
    rw [List.map_cons, List.nodup_cons] at hnodup
    rw [List.foldl_cons]
    obtain rfl | hmem := List.mem_cons.mp hmem
    · rw [lookup_foldl_insert_of_notMem _ hnodup.1, AList.lookup_insert]
    · exact ih _ hnodup.2 hmem

theorem get_ofList {entries : List (String × β)} {k : String} {b : β} (zero : β)
    (hnodup : (entries.map Prod.fst).Nodup) (hmem : (k, b) ∈ entries) :
    get (ofList entries) zero k = b := by
  rw [get, ofList, lookup_foldl_insert ∅ hnodup hmem, Option.getD_some]

theorem lookup_ofList_map {γ : Type} {m : Map β} {ks : List String} (hks : ks.Perm m.keys) (zero : β)
    (f : String → β → γ) (key : String) :
    (ofList (ks.map fun k ↦ (k, f k (m.get zero k)))).lookup key = (m.lookup key).map (f key) := by
  have hfst : (ks.map fun k ↦ (k, f k (m.get zero k))).map Prod.fst = ks := by
    rw [List.map_map]
    exact List.map_id _
  cases hlookup : m.lookup key with
  | none =>
    rw [ofList, lookup_foldl_insert_of_notMem]
    · rfl
    · rw [hfst, hks.mem_iff]
      exact AList.lookup_eq_none.mp hlookup
  | some value =>
    have hmem : key ∈ m.keys := AList.lookup_isSome.mp (by rw [hlookup]; rfl)
    have hget : m.get zero key = value := by rw [get, hlookup, Option.getD_some]
    refine lookup_foldl_insert ∅ (by rw [hfst]; exact hks.nodup_iff.mpr m.keys_nodup) ?_
    exact List.mem_map.mpr ⟨key, hks.mem_iff.mpr hmem, by rw [hget]⟩

theorem mem_ofList {entries : List (String × β)} {k : String} (h : k ∈ ofList entries) :
    k ∈ entries.map Prod.fst := by
  by_contra hmem
  have hlookup : (ofList entries).lookup k = none := by
    rw [ofList, lookup_foldl_insert_of_notMem ∅ hmem]
    rfl
  exact AList.lookup_eq_none.mp hlookup h

end Map

/-- One run of a `range` loop over a map: the keys come in some order, and
nothing is known about it. -/
structure RangeOrder where
  order : List String → List String
  perm : ∀ keys, (order keys).Perm keys

namespace RangeOrder

def listed : RangeOrder := ⟨id, fun _ ↦ .refl _⟩

def reversed : RangeOrder := ⟨List.reverse, List.reverse_perm⟩

def lastly (k : String) : RangeOrder where
  order keys := if k ∈ keys then keys.erase k ++ [k] else keys
  perm keys := by
    split_ifs with h
    · exact (List.perm_append_singleton k _).trans (List.perm_cons_erase h).symm
    · exact .refl _

variable (o : RangeOrder)

def keys (m : Map β) : List String := o.order m.keys

theorem mem_keys {m : Map β} {k : String} : k ∈ o.keys m ↔ k ∈ m :=
  (o.perm m.keys).mem_iff.trans AList.mem_keys.symm

theorem nodup_keys (m : Map β) : (o.keys m).Nodup :=
  (o.perm m.keys).nodup_iff.mpr m.keys_nodup

end RangeOrder

end PolicyEngine.Go

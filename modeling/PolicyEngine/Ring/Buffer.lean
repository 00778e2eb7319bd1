import Mathlib.Data.List.Induction
import Mathlib.Data.Nat.ModEq
import Mathlib.Logic.Function.Basic
import Mathlib.Tactic.SplitIfs

namespace PolicyEngine.Ring

variable {α : Type}

/-- A ring of slots; `count` of them hold entries, the oldest in the slot `head`. -/
structure Buffer (α : Type) where
  capacity : ℕ
  slots : Fin capacity → α
  head : Fin capacity
  count : ℕ
  count_le : count ≤ capacity

namespace Buffer

def empty (capacity : ℕ) (pos : 0 < capacity) (zero : α) : Buffer α :=
  ⟨capacity, fun _ ↦ zero, ⟨0, pos⟩, 0, Nat.zero_le _⟩

variable (b : Buffer α)

theorem pos : 0 < b.capacity := b.head.pos

def slot (i : ℕ) : Fin b.capacity := ⟨(b.head + i) % b.capacity, Nat.mod_lt _ b.pos⟩

/-- The entry after the newest one; in a full ring it is written over the oldest. -/
def push (a : α) : Buffer α :=
  let slots := Function.update b.slots (b.slot b.count) a
  if h : b.count = b.capacity then
    { b with slots := slots, head := b.slot 1 }
  else { b with slots := slots, count := b.count + 1, count_le := Nat.lt_of_le_of_ne b.count_le h }

def contents : List α := (List.range b.count).map fun i ↦ b.slots (b.slot i)

variable {b}

theorem slot_inj {i j : ℕ} (hi : i < b.capacity) (hj : j < b.capacity) (h : b.slot i = b.slot j) :
    i = j := by
  have hmod : b.head + i ≡ b.head + j [MOD b.capacity] := Fin.mk.inj h
  exact (Nat.ModEq.add_left_cancel' b.head hmod).eq_of_lt_of_lt hi hj

theorem slot_zero : b.slot 0 = b.head := Fin.ext (Nat.mod_eq_of_lt b.head.isLt)

theorem length_contents : b.contents.length = b.count := by
  rw [contents, List.length_map, List.length_range]

theorem head?_contents (h : b.count ≠ 0) : b.contents.head? = some (b.slots b.head) := by
  obtain ⟨_, hn⟩ := Nat.exists_eq_succ_of_ne_zero h
  rw [contents, hn, List.range_succ_eq_map, List.map_cons, slot_zero, List.head?_cons]

theorem contents_push_of_lt (a : α) (h : b.count < b.capacity) :
    (b.push a).contents = b.contents ++ [a] := by
  have hold : ∀ i ∈ List.range b.count,
      Function.update b.slots (b.slot b.count) a (b.slot i) = b.slots (b.slot i) := by
    intro _ hi
    apply Function.update_of_ne
    intro heq
    have hlt := List.mem_range.mp hi
    exact hlt.ne (slot_inj (hlt.trans h) h heq)
  rw [push, dif_neg h.ne, contents]
  change (List.range (b.count + 1)).map
    (fun i ↦ Function.update b.slots (b.slot b.count) a (b.slot i)) = _
  rw [List.range_succ, List.map_append, List.map_singleton, Function.update_self,
    List.map_congr_left hold]
  rfl

theorem contents_push_of_full (a : α) (h : b.count = b.capacity) :
    (b.push a).contents = b.contents.tail ++ [a] := by
  obtain ⟨n, hn⟩ := Nat.exists_eq_add_one.mpr (b.pos.trans_eq h.symm)
  -- the slots seen from the moved head are those from the old one, one further on
  have hmoved : ∀ i : ℕ, ((b.head + 1) % b.capacity + i) % b.capacity =
      (b.head + (i + 1)) % b.capacity := by
    intro i
    rw [Nat.mod_add_mod, Nat.add_assoc, Nat.add_comm 1 i]
  have hpush : (b.push a).contents = (List.range (n + 1)).map
      fun i ↦ Function.update b.slots (b.slot (n + 1)) a (b.slot (i + 1)) := by
    rw [← hn, push, dif_pos h, contents]
    apply List.map_congr_left
    intro i _
    exact congrArg _ (Fin.ext (hmoved i))
  have hold : ∀ i ∈ List.range n, Function.update b.slots (b.slot (n + 1)) a (b.slot (i + 1)) =
      b.slots (b.slot (i + 1)) := by
    intro _ hi
    apply Function.update_of_ne
    intro heq
    have hlt := List.mem_range.mp hi
    have hslot : b.slot (n + 1) = b.slot 0 := by
      rw [← hn, h]
      exact Fin.ext (Nat.add_mod_right _ _)
    have := slot_inj (by omega) b.pos (heq.trans hslot)
    omega
  rw [hpush, List.range_succ, List.map_append, List.map_congr_left hold, List.map_singleton,
    Function.update_self, contents, hn, List.range_succ_eq_map, List.map_cons, List.map_map]
  rfl

@[simp] theorem capacity_push (a : α) : (b.push a).capacity = b.capacity := by
  unfold push
  split_ifs <;> rfl

theorem contents_push (a : α) : (b.push a).contents =
    (b.contents ++ [a]).drop (b.count + 1 - b.capacity) := by
  rcases b.count_le.lt_or_eq with hlt | hfull
  · rw [contents_push_of_lt a hlt, Nat.sub_eq_zero_of_le hlt, List.drop_zero]
  · have hlong : 1 ≤ b.contents.length := by
      rw [length_contents, hfull]
      exact b.pos
    rw [contents_push_of_full a hfull, hfull, Nat.add_sub_cancel_left,
      List.drop_append_of_le_length hlong, List.drop_one]

theorem contents_foldl_push (capacity : ℕ) (pos : 0 < capacity) (zero : α) (entries : List α) :
    (entries.foldl push (empty capacity pos zero)).contents =
      entries.drop (entries.length - capacity) := by
  suffices h : (entries.foldl push (empty capacity pos zero)).capacity = capacity ∧
      (entries.foldl push (empty capacity pos zero)).contents =
        entries.drop (entries.length - capacity) from h.2
  induction entries using List.reverseRecOn with
  | nil => exact ⟨rfl, List.drop_nil.symm⟩
  | append_singleton entries _ ih =>
    obtain ⟨hcap, hcontents⟩ := ih
    have hcount : (entries.foldl push (empty capacity pos zero)).count =
        entries.length - (entries.length - capacity) := by
      rw [← length_contents, hcontents, List.length_drop]
    rw [List.foldl_append, List.foldl_cons, List.foldl_nil, contents_push, capacity_push, hcap,
      hcontents, hcount, ← List.drop_append_of_le_length (Nat.sub_le _ _), List.drop_drop,
      List.length_append, List.length_singleton]
    refine ⟨rfl, congrArg (List.drop · _) ?_⟩
    omega

end Buffer

end PolicyEngine.Ring

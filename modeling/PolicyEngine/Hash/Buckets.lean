import Mathlib.Logic.Function.Basic

namespace PolicyEngine.Hash.Buckets

variable {W K N : Type} [DecidableEq W] [DecidableEq K]

def find (key : N → K) (k : K) (nodes : List N) : Option N := nodes.find? fun n ↦ key n = k

/-- Get or create: `f` is applied to the first node with key `k`, and `fresh`
is appended first when the bucket has none. -/
def upsert (key : N → K) (k : K) (fresh : N) (f : N → N) : List N → List N
  | [] => [f fresh]
  | n :: ns => if key n = k then f n :: ns else n :: upsert key k fresh f ns

def modify (hash : K → W) (key : N → K) (k : K) (fresh : N) (f : N → N) (t : W → List N) :
    W → List N :=
  Function.update t (hash k) (upsert key k fresh f (t (hash k)))

variable {hash : K → W} {key : N → K} {k k' : K} {fresh : N} {f : N → N}

@[simp] theorem find_nil : find key k [] = none := rfl

theorem find_upsert (hfresh : key fresh = k) (hf : ∀ n, key (f n) = key n) (nodes : List N) :
    find key k' (upsert key k fresh f nodes) =
      if k' = k then some (f ((find key k nodes).getD fresh)) else find key k' nodes := by
  unfold find
  induction nodes with
  | nil =>
    by_cases h : k' = k
    · simp [upsert, hf, hfresh, h]
    · simp [upsert, hf, hfresh, h, Ne.symm h]
  | cons n _ ih =>
    by_cases hn : key n = k
    · by_cases h : k' = k
      · simp [upsert, hn, hf, h]
      · have hk : ¬ k = k' := Ne.symm h
        simp [upsert, hn, hf, h, hk]
    · by_cases hk : key n = k'
      · have h : ¬ k' = k := fun he ↦ hn (hk.trans he)
        simp [upsert, hk, h]
      · simp [upsert, hn, hk, ih]

/-- The hash plays no part in what a table finds: collisions only lengthen
buckets, and a bucket is searched by the raw key. -/
theorem find_modify (hfresh : key fresh = k) (hf : ∀ n, key (f n) = key n) (t : W → List N) :
    find key k' (modify hash key k fresh f t (hash k')) =
      if k' = k then some (f ((find key k (t (hash k))).getD fresh))
      else find key k' (t (hash k')) := by
  unfold modify
  by_cases hh : hash k' = hash k
  · rw [hh, Function.update_self, find_upsert hfresh hf]
  · have h : k' ≠ k := fun h ↦ hh (congrArg hash h)
    rw [Function.update_of_ne hh, if_neg h]

end PolicyEngine.Hash.Buckets

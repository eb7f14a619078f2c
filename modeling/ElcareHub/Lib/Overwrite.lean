import Mathlib.Data.List.Induction
import Mathlib.Data.List.Nodup
import Mathlib.Logic.Function.Basic

/-!
# Writing records under keys

A store keeps one record under a key, so that of several items written under the same key the last one
is what is read back (`writeAll_apply`). When the items have different keys, each is read back as it
was written (`filter_key_eq_singleton`).
-/

namespace Overwrite

variable {κ α β : Type} [DecidableEq κ] {key : α → κ} {val : α → β} {store : κ → Option β}

/-- The items `xs`, written one after another under their keys. -/
def writeAll (key : α → κ) (val : α → β) (store : κ → Option β) (xs : List α) : κ → Option β :=
  xs.foldl (fun store x => Function.update store (key x) (some (val x))) store

/-- What is read under a key is the last item that was written under it. -/
theorem writeAll_apply (xs : List α) (k : κ) :
    writeAll key val store xs k =
      ((xs.filter fun x => decide (key x = k)).getLast?.map val).or (store k) := by
  induction xs using List.reverseRecOn with
  | nil => rfl
  | append_singleton xs x ih =>
    have hlast : writeAll key val store (xs ++ [x]) =
        Function.update (writeAll key val store xs) (key x) (some (val x)) := by
      rw [writeAll, List.foldl_append]
      rfl
    rw [hlast]
    by_cases hk : key x = k
    · subst hk
      simp
    · rw [Function.update_of_ne (Ne.symm hk), ih]
      simp [hk]

/-- Under different keys there is one item for each. -/
theorem filter_key_eq_singleton {xs : List α} (hnodup : (xs.map key).Nodup) (hx : x ∈ xs) :
    xs.filter (fun y => decide (key y = key x)) = [x] := by
  induction xs with
  | nil => cases hx
  | cons y ys ih =>
    rw [List.map_cons, List.nodup_cons] at hnodup
    rcases List.mem_cons.mp hx with rfl | hx
    · -- no later item has the key of the first
      have hnone : ys.filter (fun z => decide (key z = key x)) = [] := by
        refine List.filter_eq_nil_iff.mpr fun z hz hkey => hnodup.1 ?_
        rw [← of_decide_eq_true hkey]
        exact List.mem_map_of_mem hz
      rw [List.filter_cons_of_pos (by simp), hnone]
    · have hne : key y ≠ key x := fun heq => hnodup.1 (heq ▸ List.mem_map_of_mem hx)
      rw [List.filter_cons_of_neg (by simpa using hne), ih hnodup.2 hx]

end Overwrite

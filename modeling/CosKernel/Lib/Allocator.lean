import CosKernel.Lib.Run

/-!
# An abstract memory allocator

What an allocator is for, independently of how it finds memory: it owns an
*arena* of byte addresses and hands out non-empty extents of it that do not
overlap, until they are given back by their address. The state is the list of
the extents handed out; a `Step` says what a call may do to it.

`Safe` is kept by every step, so it holds of every reachable list.
-/

namespace CosKernel.Allocator

/-- A block of memory: the byte addresses from `addr` on. -/
structure Extent where
  addr : Nat
  size : Nat
deriving DecidableEq, Repr

/-- The byte addresses of an extent. -/
def Extent.bytes (e : Extent) : Set ℕ := Set.Ico e.addr (e.addr + e.size)

/-- Two extents share no byte. -/
def Extent.Apart (e f : Extent) : Prop := Disjoint e.bytes f.bytes

theorem Extent.apart_iff {e f : Extent} (he : 0 < e.size) (hf : 0 < f.size) :
    e.Apart f ↔ e.addr + e.size ≤ f.addr ∨ f.addr + f.size ≤ e.addr := by
  unfold Extent.Apart Extent.bytes
  rw [Set.Ico_disjoint_Ico]
  omega

/-- Extents of disjoint arenas share no byte. -/
theorem Extent.apart_of_disjoint {e f : Extent} {arena arena' : Set ℕ} (he : e.bytes ⊆ arena)
    (hf : f.bytes ⊆ arena') (hdis : Disjoint arena arena') : e.Apart f :=
  Set.disjoint_of_subset he hf hdis

instance : Std.Symm Extent.Apart := ⟨fun _ _ h => Disjoint.symm h⟩

/-- Extents that share no byte and are not empty start at different addresses. -/
theorem Extent.Apart.addr_ne {e f : Extent} (h : e.Apart f) (he : 0 < e.size) (hf : 0 < f.size) :
    e.addr ≠ f.addr := by
  rcases (Extent.apart_iff he hf).1 h with h | h <;> omega

/-- What a call of an allocator does, seen from outside. -/
inductive Event where
  | grant (e : Extent)
  | release (addr : Nat)
  | idle

/-- One call of an allocator with this arena. -/
inductive Step (arena : Set ℕ) (live : List Extent) : Event → List Extent → Prop where
  | grant (e : Extent) (hpos : 0 < e.size) (harena : e.bytes ⊆ arena)
      (hapart : ∀ f ∈ live, f.Apart e) : Step arena live (.grant e) (live ++ [e])
  | release (addr : Nat) : Step arena live (.release addr) (live.filter fun e => e.addr ≠ addr)
  | idle : Step arena live .idle live

/-- The lists of live extents some run of calls leads to. -/
inductive Reachable (arena : Set ℕ) : List Extent → Prop where
  | init : Reachable arena []
  | step {live live' : List Extent} {ev : Event} (h : Reachable arena live)
      (hstep : Step arena live ev live') : Reachable arena live'

/-- The extents lie in the arena, are not empty and do not overlap. -/
structure Safe (arena : Set ℕ) (live : List Extent) : Prop where
  apart : live.Pairwise Extent.Apart
  inside : ∀ e ∈ live, e.bytes ⊆ arena
  pos : ∀ e ∈ live, 0 < e.size

variable {arena : Set ℕ} {live live' : List Extent} {ev : Event}

theorem safe_nil : Safe arena [] := ⟨List.Pairwise.nil, by simp, by simp⟩

theorem Safe.step (h : Safe arena live) (hstep : Step arena live ev live') : Safe arena live' := by
  cases hstep with
  | grant e hpos harena hapart =>
    refine ⟨?_, ?_, ?_⟩
    · rw [List.pairwise_append]
      refine ⟨h.apart, List.pairwise_singleton _ _, ?_⟩
      intro f hf g hg
      rw [List.mem_singleton.1 hg]
      exact hapart f hf
    · intro f hf
      rcases List.mem_append.1 hf with hf | hf
      · exact h.inside f hf
      · rw [List.mem_singleton.1 hf]
        exact harena
    · intro f hf
      rcases List.mem_append.1 hf with hf | hf
      · exact h.pos f hf
      · rw [List.mem_singleton.1 hf]
        exact hpos
  | release addr =>
    exact ⟨h.apart.filter _, fun e he => h.inside e (List.mem_filter.1 he).1,
      fun e he => h.pos e (List.mem_filter.1 he).1⟩
  | idle => exact h

/-- Every reachable list is safe. -/
theorem Reachable.safe (h : Reachable arena live) : Safe arena live := by
  induction h with
  | init => exact safe_nil
  | step _ hstep ih => exact ih.step hstep

/-- At most one live extent starts at a given address. -/
theorem Safe.eq_of_addr_eq (h : Safe arena live) {e f : Extent} (he : e ∈ live) (hf : f ∈ live)
    (haddr : e.addr = f.addr) : e = f := by
  by_contra hne
  have hapart := h.apart.forall he hf hne
  exact hapart.addr_ne (h.pos e he) (h.pos f hf) haddr

end CosKernel.Allocator

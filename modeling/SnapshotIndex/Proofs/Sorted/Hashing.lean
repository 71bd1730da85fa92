import Mathlib.Logic.ExistsUnique
import Mathlib.Logic.Function.Basic
import Mathlib.Tactic.ByContra
import SnapshotIndex.Element.Record
import SnapshotIndex.Proofs.Sorted.Reachable
import SnapshotIndex.Proofs.Sorted.Refinement

/-!
# The hash of an index

The hash of a sorted index goes through the identities of its elements.  In each step an
identity is joined to what there was before, bit by bit, and the result is multiplied by
a prime.  Numbers have 64 bits and whatever exceeds them is lost, but a step as a whole
loses nothing: to join the same bits once more takes them away, and an odd number has an
inverse (`hashUnfactor`) that undoes the multiplication.

* `bijective_hashStep`, `bijective_hashStep_ident`: a step can be taken back by whoever
  knows the identity, and the identity be found by whoever knows both hashes.
* `foldl_ne`: so a difference in a single step is never lost in the steps that follow.
* `hash_tells_apart`: indexes that differ in the identity at just one place have
  different hashes.  Of two differences the second may undo the first.
-/

namespace SnapshotIndex

open Identified (ident)

open Function (Bijective Injective)

/-! ## Folds -/

section Folds

variable {σ ι : Type} {step : σ → ι → σ}

/-- If no step loses a difference, no sequence of steps does. -/
theorem foldl_injective (h : ∀ i, Injective fun s => step s i) (is : List ι) :
    Injective fun s => is.foldl step s := by
  induction is with
  | nil => exact Function.injective_id
  | cons i is ih => exact ih.comp (h i)

/-- Different steps in the middle lead to different ends. -/
theorem foldl_ne (h : ∀ i, Injective fun s => step s i) (h' : ∀ s, Injective (step s))
    {i j : ι} (hne : i ≠ j) (before after : List ι) (s : σ) :
    (before ++ i :: after).foldl step s ≠ (before ++ j :: after).foldl step s := by
  rw [List.foldl_append, List.foldl_append, List.foldl_cons, List.foldl_cons]
  intro hend
  have hafter : step (before.foldl step s) i = step (before.foldl step s) j :=
    foldl_injective h after hend
  exact hne (h' _ hafter)

/-- Lists of one length that differ at one place only are alike before and after it. -/
theorem exists_split_of_existsUnique_ne {is js : List ι} (hlength : is.length = js.length)
    (hone : ∃! k : Nat, is[k]? ≠ js[k]?) : ∃ before i j after,
      is = before ++ i :: after ∧ js = before ++ j :: after ∧ i ≠ j := by
  obtain ⟨k, hk, hunique⟩ := hone
  have hsame : ∀ n, n ≠ k → is[n]? = js[n]? := by
    intro n hn
    by_contra hne
    exact hn (hunique n hne)
  have hki : k < is.length := by
    by_contra hge
    apply hk
    rw [List.getElem?_eq_none (by omega), List.getElem?_eq_none (by omega)]
  have hkj : k < js.length := hlength ▸ hki
  have hbefore : is.take k = js.take k := by
    apply List.ext_getElem?
    intro n
    rw [List.getElem?_take, List.getElem?_take]
    split
    · exact hsame n (by omega)
    · rfl
  have hafter : is.drop (k + 1) = js.drop (k + 1) := by
    apply List.ext_getElem?
    intro n
    rw [List.getElem?_drop, List.getElem?_drop]
    exact hsame _ (by omega)
  refine ⟨is.take k, is[k], js[k], is.drop (k + 1), ?_, ?_, ?_⟩
  · rw [List.getElem_cons_drop, List.take_append_drop]
  · rw [hbefore, hafter, List.getElem_cons_drop, List.take_append_drop]
  · intro heq
    apply hk
    rw [List.getElem?_eq_getElem hki, List.getElem?_eq_getElem hkj, heq]

end Folds

/-! ## Steps of the hash -/

/-- To join the same bits twice is to leave a number as it is. -/
theorem involutive_xor (n : UInt64) : Function.Involutive fun m => m ^^^ n := by
  intro m
  change m ^^^ n ^^^ n = m
  rw [UInt64.xor_assoc, UInt64.xor_self, UInt64.xor_zero]

theorem Ident.bijective_raw : Bijective Ident.raw := by
  constructor
  · rintro ⟨m⟩ ⟨n⟩ h
    exact congrArg Ident.mk h
  · intro n
    exact ⟨⟨n⟩, rfl⟩

namespace SortedIndex

/-- Where the hash starts. -/
def hashStart : UInt64 := 14695981039346656037

/-- The factor of each step. -/
def hashFactor : UInt64 := 1099511628211

/-- What undoes a multiplication by the factor. -/
def hashUnfactor : UInt64 := 14886173955864302971

/-- One step of the hash. -/
def hashStep (hash : UInt64) (i : Ident) : UInt64 := (hash ^^^ i.raw) * hashFactor

theorem contentHash_eq {α : Type} [Identified α] (s : SortedIndex α) :
    s.contentHash = (s.toList.map ident).foldl hashStep hashStart := by
  rw [List.foldl_map]
  rfl

theorem mul_hashFactor_hashUnfactor (n : UInt64) : n * hashFactor * hashUnfactor = n :=
  calc n * hashFactor * hashUnfactor = n * (hashFactor * hashUnfactor) := UInt64.mul_assoc ..
    _ = n * 1 := congrArg (n * ·) (by decide)
    _ = n := UInt64.mul_one n

theorem mul_hashUnfactor_hashFactor (n : UInt64) : n * hashUnfactor * hashFactor = n :=
  calc n * hashUnfactor * hashFactor = n * hashFactor * hashUnfactor := by
        rw [UInt64.mul_assoc, UInt64.mul_comm hashUnfactor, UInt64.mul_assoc]
    _ = n := mul_hashFactor_hashUnfactor n

/-- The factor is odd, so that it has an inverse. -/
theorem bijective_mul_hashFactor : Bijective fun n : UInt64 => n * hashFactor :=
  Function.bijective_iff_has_inverse.mpr
    ⟨(· * hashUnfactor), mul_hashFactor_hashUnfactor, mul_hashUnfactor_hashFactor⟩

/-- With one identity, a step is a bijection of hashes. -/
theorem bijective_hashStep (i : Ident) : Bijective fun hash => hashStep hash i :=
  bijective_mul_hashFactor.comp (involutive_xor i.raw).bijective

/-- From one hash, a step is a bijection of identities and hashes. -/
theorem bijective_hashStep_ident (hash : UInt64) : Bijective (hashStep hash) := by
  have hjoin : Bijective fun i : Ident => i.raw ^^^ hash :=
    (involutive_xor hash).bijective.comp Ident.bijective_raw
  have hstep : hashStep hash = (· * hashFactor) ∘ fun i : Ident => i.raw ^^^ hash := by
    funext i
    rw [hashStep, UInt64.xor_comm]
    rfl
  rw [hstep]
  exact bijective_mul_hashFactor.comp hjoin

end SortedIndex

open SortedIndex (hashStart hashStep)

/-- The hash of an index is made of steps, each of which is a bijection of hashes for every
identity, and of identities and hashes for every hash before.  So two indexes of any size
that differ in the identity at exactly one place have different hashes. -/
theorem hash_tells_apart {α β : Type} [Identified α] [Identified β] (s : SortedIndex α)
    (t : SortedIndex β) :
    s.contentHash = (s.toList.map ident).foldl hashStep hashStart ∧
      (∀ i, Bijective fun hash => hashStep hash i) ∧ (∀ hash, Bijective (hashStep hash)) ∧
      (s.size = t.size →
        (∃! k : Nat, (s.toList.map ident)[k]? ≠ (t.toList.map ident)[k]?) →
          s.contentHash ≠ t.contentHash) := by
  refine ⟨s.contentHash_eq, SortedIndex.bijective_hashStep,
    SortedIndex.bijective_hashStep_ident, ?_⟩
  intro hsize hone
  have hlength : (s.toList.map ident).length = (t.toList.map ident).length := by
    have hs : s.toList.length = s.size := s.content.length_toList
    have ht : t.toList.length = t.size := t.content.length_toList
    rw [List.length_map, List.length_map, hs, ht, hsize]
  obtain ⟨before, i, j, after, hi, hj, hne⟩ := exists_split_of_existsUnique_ne hlength hone
  rw [s.contentHash_eq, t.contentHash_eq, hi, hj]
  exact foldl_ne (fun i => (SortedIndex.bijective_hashStep i).1)
    (fun hash => (SortedIndex.bijective_hashStep_ident hash).1) hne before after hashStart

/-- Two indexes in different orders, with a different identity in the middle of three. -/
theorem hash_tells_apart_middle :
    let s := SortedIndex.reached RecordOrder.key.keyOrder
      [.act (.add ⟨⟨7⟩, 14, ⟨1⟩, ""⟩), .hold ⟨0⟩, .act (.add ⟨⟨2⟩, 19, ⟨1⟩, ""⟩),
        .act (.add ⟨⟨9⟩, 3, ⟨1⟩, ""⟩)]
    let t := SortedIndex.reached RecordOrder.keyDescending.keyOrder
      [.act (.add ⟨⟨2⟩, 5, ⟨1⟩, ""⟩), .act (.add ⟨⟨8⟩, 6, ⟨1⟩, ""⟩),
        .act (.add ⟨⟨9⟩, 30, ⟨1⟩, ""⟩)]
    s.size = t.size ∧ (∃! k : Nat, (s.toList.map ident)[k]? ≠ (t.toList.map ident)[k]?) ∧
      s.contentHash ≠ t.contentHash := by
  intro s t
  have hs : s.toList.map ident = [⟨9⟩, ⟨7⟩, ⟨2⟩] :=
    congrArg (List.map ident) (toList_reached RecordOrder.key.keyOrder _)
  have ht : t.toList.map ident = [⟨9⟩, ⟨8⟩, ⟨2⟩] :=
    congrArg (List.map ident) (toList_reached RecordOrder.keyDescending.keyOrder _)
  have hone : ∃! k : Nat, (s.toList.map ident)[k]? ≠ (t.toList.map ident)[k]? := by
    have hne : (⟨7⟩ : Ident) ≠ ⟨8⟩ := by decide
    rw [hs, ht]
    refine ⟨1, fun heq => hne (Option.some.inj heq), ?_⟩
    intro k hk
    match k with
    | 0 => exact absurd rfl hk
    | 1 => rfl
    | 2 => exact absurd rfl hk
    | k + 3 => exact absurd rfl hk
  have hsize : s.size = t.size :=
    calc s.size = 3 := rfl
      _ = t.size := rfl
  obtain ⟨-, -, -, happart⟩ := hash_tells_apart s t
  exact ⟨hsize, hone, happart hsize hone⟩

/-- Of two differences the second may undo the first. -/
example : [⟨1⟩, ⟨2⟩].foldl hashStep hashStart =
    [⟨3⟩, ⟨2199023259580⟩].foldl hashStep hashStart := by
  decide

end SnapshotIndex

import Mathlib
import BrailleScript.Proofs.Heap.Cycles

/-!
# Laws of equality

Comparing two values ends, also where containers contain themselves, and comes to the same in either
order.  Equality is transitive: two comparisons that succeed never compose to one that fails.

A comparison succeeds if the contents match down to some finite depth.  Then it meets no pair of
containers inside itself: a match of a pair that needed a match of the same pair further down would
do with the lower one.  And matching down to a depth is transitive without more ado.

## Key results

- `compares_iff`: comparing without a bound ends, and with what `equal` gives
- `Heap.equalWithin_eq`: larger bounds change nothing
- `equalWithin_swap`: the order of the two values does not matter
- `equal_iff_alike`: two values are equal just if they match down to some depth
- `equality_laws`: all heaps and values
-/

namespace BrailleScript

/-! ## What is compared -/

/-- The containers of two values that are compared by their contents. -/
def Value.facing? : Value → Value → Option (Container × Container)
  | .array x, .array y => some (.array x, .array y)
  | .map x, .map y => some (.map x, .map y)
  | _, _ => none

/-- Whether two values that are not compared by their contents are equal. -/
def Value.isSame : Value → Value → Bool
  | .null, .null => true
  | .bool a, .bool b => a == b
  | .number a, .number b => a == b
  | .text a, .text b => a == b
  | .function x _, .function y _ => x == y
  | .builtin a, .builtin b => a == b
  | .classValue a, .classValue b => a.id == b.id
  | .object x _, .object y _ => x == y
  | _, _ => false

/-- What has to be alike of two containers before their contents are compared. -/
def Heap.shape (h : Heap) : Container → Nat ⊕ List String
  | .array ref => .inl (h.items ref).size
  | .map ref => .inr (h.entries ref).keys
  | .object ref => .inr (h.fields ref).keys

namespace Value

variable {u v w : Value} {c d : Container}

/-- Which containers face each other does not hang on the order of the values. -/
theorem facing?_swap (v w : Value) : facing? w v = (facing? v w).map Prod.swap := by
  cases v <;> cases w <;> rfl

/-- The containers determine the values. -/
theorem eq_of_facing? {v' w' : Value} (h : facing? v w = some (c, d))
    (h' : facing? v' w' = some (c, d)) : v' = v ∧ w' = w := by
  cases v <;> cases w <;> cases h <;> cases v' <;> cases w' <;> cases h' <;> exact ⟨rfl, rfl⟩

/-- Values that are the same container are the same value. -/
theorem facing?_self (h : facing? v w = some (c, c)) : v = w := by
  cases v <;> cases w <;> cases h <;> rfl

/-- Facing containers are those of the values, whatever they are compared with. -/
theorem facing?_trans {d' e : Container} (h : facing? u v = some (c, d))
    (h' : facing? v w = some (d', e)) : d' = d ∧ facing? u w = some (c, e) := by
  cases u <;> cases v <;> cases h <;> cases w <;> cases h' <;> exact ⟨rfl, rfl⟩

/-- Plain values are the same in either order. -/
theorem isSame_swap (v w : Value) : isSame w v = isSame v w := by
  cases v <;> cases w <;> first | rfl | exact BEq.comm

/-- Plain values that are the same as a third one are the same. -/
theorem isSame_trans (h : isSame u v) (h' : isSame v w) : isSame u w := by
  cases v with
  | array | map => cases u <;> cases h
  | _ =>
    cases u <;> first | (cases h; done) | skip
    all_goals
      cases w <;> first | (cases h'; done) | exact BEq.trans h h' | rfl

/-- What is the same without a look at contents is no array and no map. -/
theorem facing?_of_isSame (h : isSame v w) (u : Value) : facing? v u = none ∧ facing? w u = none := by
  cases v <;> cases w <;> first | (cases h; done) | (cases u <;> exact ⟨rfl, rfl⟩)

end Value

namespace Heap

variable {h : Heap} {depth : Nat} {within : List (Container × Container)} {u v w : Value}
  {c d : Container}

/-- Containers of one shape hold equally many values. -/
theorem length_contents (hshape : h.shape c = h.shape d) :
    (h.contents c).length = (h.contents d).length := by
  have hkeys (c : Container) : (h.contents c).length = (h.shape c).elim id List.length := by
    cases c <;> simp [contents, shape, Fields.values, Fields.keys]
  rw [hkeys, hkeys, hshape]

/-- Values that are not both containers of one kind are compared as they are. -/
theorem equalWithin_same (hf : v.facing? w = none) (depth : Nat)
    (within : List (Container × Container)) :
    h.equalWithin depth within v w = .ok (v.isSame w) := by
  cases v <;> cases w <;> first | (cases hf; done) | (unfold equalWithin; rfl)

/-- Facing containers are compared by their contents, unless they are one container, or already
being compared, or of different shapes. -/
theorem equalWithin_facing (hf : v.facing? w = some (c, d)) (depth : Nat)
    (within : List (Container × Container)) :
    h.equalWithin depth within v w =
      if c = d then .ok true
      else if (c, d) ∈ within then .error (.selfContaining .compare)
      else if h.shape c ≠ h.shape d then .ok false
      else
        match depth with
        | 0 => .error (.selfContaining .compare)
        | depth + 1 =>
          allEqual (h.equalWithin depth ((c, d) :: within))
            ((h.contents c).zip (h.contents d)) := by
  cases v with
  | array x =>
    cases w <;> cases hf
    unfold equalWithin
    simp only [Container.array.injEq, shape, ne_eq, Sum.inl.injEq]
    rfl
  | map x =>
    cases w <;> cases hf
    unfold equalWithin
    simp only [Container.map.injEq, shape, ne_eq, Sum.inr.injEq]
    rfl
  | _ => cases w <;> cases hf

/-! ## Comparing without a bound -/

/-- The containers of the values are about to be compared by their contents. -/
structure Opens (around : List (Container × Container)) (v w : Value) (c d : Container) :
    Prop where
  facing : v.facing? w = some (c, d)
  ne : c ≠ d
  notMem : (c, d) ∉ around

/-- What comparing two values inside the pairs of containers `around` comes to.  Contents are compared
pair by pair, up to the first that is not equal. -/
inductive Compares (h : Heap) :
    List (Container × Container) → Value → Value → Except Cause Bool → Prop
  | plain {around : List (Container × Container)} {v w : Value} (hf : v.facing? w = none) :
    Compares h around v w (.ok (v.isSame w))
  | itself {around : List (Container × Container)} {v w : Value} {c : Container}
    (hf : v.facing? w = some (c, c)) : Compares h around v w (.ok true)
  | again {around : List (Container × Container)} {v w : Value} {c d : Container}
    (hf : v.facing? w = some (c, d)) (hne : c ≠ d) (hin : (c, d) ∈ around) :
    Compares h around v w (.error (.selfContaining .compare))
  | unlike {around : List (Container × Container)} {v w : Value} {c d : Container}
    (ho : Opens around v w c d) (hshape : h.shape c ≠ h.shape d) : Compares h around v w (.ok false)
  | equal {around : List (Container × Container)} {v w : Value} {c d : Container}
    (ho : Opens around v w c d) (hshape : h.shape c = h.shape d)
    (hall : ∀ p ∈ (h.contents c).zip (h.contents d),
      Compares h ((c, d) :: around) p.1 p.2 (.ok true)) : Compares h around v w (.ok true)
  | stops {around : List (Container × Container)} {v w : Value} {c d : Container}
    {before after : List (Value × Value)} {p : Value × Value} {r : Except Cause Bool}
    (ho : Opens around v w c d) (hshape : h.shape c = h.shape d)
    (hzip : (h.contents c).zip (h.contents d) = before ++ p :: after)
    (hbefore : ∀ q ∈ before, Compares h ((c, d) :: around) q.1 q.2 (.ok true))
    (hp : Compares h ((c, d) :: around) p.1 p.2 r) (hr : r ≠ .ok true) : Compares h around v w r

section Lists

variable {f : Value → Value → Except Cause Bool} {l before after : List (Value × Value)}
  {p : Value × Value}

/-- All pairs are equal when each of them is. -/
theorem allEqual_eq_true : allEqual f l = .ok true ↔ ∀ p ∈ l, f p.1 p.2 = .ok true := by
  induction l with
  | nil => simp [allEqual]
  | cons p l ih =>
    rw [allEqual, List.forall_mem_cons, ← ih]
    split
    next hp => rw [hp]; simp
    next hp => exact ⟨fun he => absurd he hp, fun he => absurd he.1 hp⟩

/-- The first pair that is not equal decides. -/
theorem allEqual_of_stop (hbefore : ∀ q ∈ before, f q.1 q.2 = .ok true)
    (hp : f p.1 p.2 ≠ .ok true) : allEqual f (before ++ p :: after) = f p.1 p.2 := by
  induction before with
  | nil =>
    rw [List.nil_append, allEqual]
    split
    next ht => exact absurd ht hp
    next => rfl
  | cons q before ih =>
    rw [List.forall_mem_cons] at hbefore
    rw [List.cons_append, allEqual, hbefore.1]
    exact ih hbefore.2

/-- Either all pairs are equal, or there is a first one that is not. -/
theorem all_or_first_stop (f : Value → Value → Except Cause Bool) (l : List (Value × Value)) :
    (∀ p ∈ l, f p.1 p.2 = .ok true) ∨ ∃ before p after, l = before ++ p :: after ∧
      (∀ q ∈ before, f q.1 q.2 = .ok true) ∧ f p.1 p.2 ≠ .ok true := by
  induction l with
  | nil => exact .inl (List.forall_mem_nil _)
  | cons p l ih =>
    -- the first pair stops, or one behind it does
    by_cases hp : f p.1 p.2 = .ok true
    · rcases ih with hall | ⟨before, q, after, rfl, hbefore, hq⟩
      · exact .inl (List.forall_mem_cons.2 ⟨hp, hall⟩)
      · exact .inr ⟨p :: before, q, after, rfl, List.forall_mem_cons.2 ⟨hp, hbefore⟩, hq⟩
    · exact .inr ⟨[], p, l, rfl, List.forall_mem_nil _, hp⟩

end Lists

/-- A comparison that goes inside compares the contents in pairs. -/
theorem equalWithin_opens (ho : Opens within v w c d) (hshape : h.shape c = h.shape d)
    (depth : Nat) : h.equalWithin (depth + 1) within v w =
      allEqual (h.equalWithin depth ((c, d) :: within)) ((h.contents c).zip (h.contents d)) := by
  rw [equalWithin_facing ho.facing, if_neg ho.ne, if_neg ho.notMem, if_neg (not_not.2 hshape)]

/-- The pairs of containers that a comparison can go into. -/
def facingPairs (h : Heap) : List (Container × Container) :=
  h.containers ×ˢ h.containers

/-- Containers that hold something are among those that can face each other. -/
theorem mem_facingPairs {p : Value × Value} (hp : p ∈ (h.contents c).zip (h.contents d)) :
    (c, d) ∈ h.facingPairs := by
  obtain ⟨hc, hd⟩ := List.of_mem_zip hp
  exact List.pair_mem_product.2 ⟨mem_containers hc, mem_containers hd⟩

/-- A comparison with room enough comes to what the one without a bound comes to. -/
theorem Compares.equalWithin_eq {r : Except Cause Bool} (hr : h.Compares within v w r)
    (hroom : Room h.facingPairs within depth) : h.equalWithin depth within v w = r := by
  -- by the rules of the comparison without a bound; each step inside leaves room for one container
  -- less
  induction hr generalizing depth with
  | plain hf => exact equalWithin_same hf depth _
  | itself hf => rw [equalWithin_facing hf, if_pos rfl]
  | again hf hne hin => rw [equalWithin_facing hf, if_neg hne, if_pos hin]
  | unlike ho hshape =>
    rw [equalWithin_facing ho.facing, if_neg ho.ne, if_neg ho.notMem, if_pos hshape]
  | equal ho hshape _ ih =>
    obtain ⟨k, rfl⟩ := hroom.exists_succ
    rw [equalWithin_opens ho hshape, allEqual_eq_true]
    exact fun p hp => ih p hp (hroom.inside ho.notMem (mem_facingPairs hp))
  | @stops _ _ _ c d before after p r ho hshape hzip _ _ hne ihbefore ihp =>
    obtain ⟨k, rfl⟩ := hroom.exists_succ
    -- what is compared before and at the pair that stops is inside of the containers
    have hinside {q : Value × Value} (hq : q ∈ before ++ p :: after) :=
      hroom.inside ho.notMem (mem_facingPairs (hzip ▸ hq))
    have hp := ihp (hinside (List.mem_append_right _ (.head _)))
    rw [equalWithin_opens ho hshape, hzip, allEqual_of_stop
      (fun q hq => ihbefore q hq (hinside (List.mem_append_left _ hq))) (hp.symm ▸ hne), hp]

/-- The comparison without a bound comes to an end. -/
theorem compares_equalWithin (hroom : Room h.facingPairs within depth) (v w : Value) :
    h.Compares within v w (h.equalWithin depth within v w) := by
  -- on the depth that is left: each step inside adds a new facing pair to `within`
  induction depth generalizing within v w with
  | zero => exact nomatch hroom.exists_succ
  | succ depth ih =>
    cases hf : v.facing? w with
    | none =>
      rw [equalWithin_same hf]
      exact .plain hf
    | some p =>
      obtain ⟨c, d⟩ := p
      by_cases hne : c = d
      · subst hne
        rw [equalWithin_facing hf, if_pos rfl]
        exact .itself hf
      by_cases hin : (c, d) ∈ within
      · rw [equalWithin_facing hf, if_neg hne, if_pos hin]
        exact .again hf hne hin
      have ho : Opens within v w c d := ⟨hf, hne, hin⟩
      by_cases hshape : h.shape c = h.shape d
      · have hinner {p : Value × Value} (hp : p ∈ (h.contents c).zip (h.contents d)) :=
          ih (hroom.inside hin (mem_facingPairs hp)) p.1 p.2
        rw [equalWithin_opens ho hshape]
        rcases all_or_first_stop (h.equalWithin depth ((c, d) :: within))
          ((h.contents c).zip (h.contents d)) with hall | ⟨before, p, after, hzip, hbefore, hp⟩
        · rw [allEqual_eq_true.2 hall]
          exact .equal ho hshape fun p hp => hall p hp ▸ hinner hp
        · rw [hzip] at hinner ⊢
          rw [allEqual_of_stop hbefore hp]
          exact .stops ho hshape hzip
            (fun q hq => hbefore q hq ▸ hinner (List.mem_append_left _ hq))
            (hinner (List.mem_append_right _ (.head _))) hp
      · rw [equalWithin_facing hf, if_neg hne, if_neg hin, if_pos hshape]
        exact .unlike ho hshape

/-- Comparing without a bound ends, and with what `equal` gives. -/
theorem compares_iff {r : Except Cause Bool} : h.Compares [] v w r ↔ r = h.equal v w := by
  -- there are no more pairs of containers than the bound
  have hroom : Room h.facingPairs [] (h.size * h.size + 1) :=
    .start (by simp [facingPairs, List.length_product, length_containers])
  rw [equal]
  constructor
  · exact fun hr => (hr.equalWithin_eq hroom).symm
  · rintro rfl
    exact compares_equalWithin hroom v w

/-- Whether two values are equal does not depend on the bound. -/
theorem equalWithin_eq (hd : h.size * h.size < depth) (v w : Value) :
    h.equalWithin depth [] v w = h.equal v w := by
  have hroom : Room h.facingPairs [] depth :=
    .start (by rwa [facingPairs, List.length_product, length_containers])
  exact (compares_iff.2 rfl).equalWithin_eq hroom

/-! ## Symmetry -/

/-- A comparison goes inside in either order. -/
theorem Opens.swap (ho : Opens within v w c d) : Opens (within.map Prod.swap) w v d c where
  facing := by rw [Value.facing?_swap, ho.facing]; rfl
  ne := ho.ne.symm
  notMem hin := by
    obtain ⟨⟨c', d'⟩, hp, hswap⟩ := List.mem_map.1 hin
    cases hswap
    exact ho.notMem hp

/-- The two values can change places. -/
theorem Compares.swap {r : Except Cause Bool} (hr : h.Compares within v w r) :
    h.Compares (within.map Prod.swap) w v r := by
  -- each rule has its mirror image, with the pairs that are being compared turned around
  induction hr with
  | @plain _ v w hf =>
    rw [← Value.isSame_swap]
    exact .plain (by rw [Value.facing?_swap, hf]; rfl)
  | itself hf => exact .itself (by rw [Value.facing?_swap, hf]; rfl)
  | again hf hne hin =>
    exact .again (by rw [Value.facing?_swap, hf]; rfl) hne.symm (List.mem_map_of_mem hin)
  | unlike ho hshape => exact .unlike ho.swap (Ne.symm hshape)
  | equal ho hshape _ ih =>
    refine .equal ho.swap hshape.symm fun p hp => ?_
    rw [← List.zip_swap] at hp
    obtain ⟨q, hq, rfl⟩ := List.mem_map.1 hp
    exact ih q hq
  | @stops _ _ _ c d before after p _ ho hshape hzip _ _ hne ihbefore ihp =>
    have hzip' : (h.contents d).zip (h.contents c) =
        before.map Prod.swap ++ p.swap :: after.map Prod.swap := by
      rw [← List.zip_swap, hzip, List.map_append, List.map_cons]
    refine .stops ho.swap hshape.symm hzip' (fun p hp => ?_) ihp hne
    obtain ⟨q, hq, rfl⟩ := List.mem_map.1 hp
    exact ihbefore q hq

/-- Values are compared alike in either order. -/
theorem equal_swap (h : Heap) (v w : Value) : h.equal v w = h.equal w v :=
  compares_iff.1 (compares_iff.2 rfl : h.Compares [] v w _).swap

/-- A comparison fails in one way only. -/
theorem Compares.error_eq {r : Except Cause Bool} {e : Cause} (hr : h.Compares within v w r)
    (he : r = .error e) : e = .selfContaining .compare := by
  induction hr with
  | plain | itself | unlike | equal => cases he
  | again => exact (Except.error.inj he).symm
  | stops _ _ _ _ _ _ _ ihp => exact ihp he

/-! ## Transitivity -/

/-- The values match where they are looked at no deeper than `depth` containers. -/
inductive Alike (h : Heap) : (depth : Nat) → Value → Value → Prop
  | plain {n : Nat} {v w : Value} (hf : v.facing? w = none) (hsame : v.isSame w) : Alike h n v w
  | itself {n : Nat} {v w : Value} {c : Container} (hf : v.facing? w = some (c, c)) : Alike h n v w
  | inside {n : Nat} {v w : Value} {c d : Container} (hf : v.facing? w = some (c, d))
    (hshape : h.shape c = h.shape d)
    (hall : ∀ p ∈ (h.contents c).zip (h.contents d), Alike h n p.1 p.2) : Alike h (n + 1) v w

/-- Values that are alike down to a depth are alike down to any greater one. -/
theorem Alike.mono {n m : Nat} (ha : h.Alike n v w) (hle : n ≤ m) : h.Alike m v w := by
  induction ha generalizing m with
  | plain hf hsame => exact .plain hf hsame
  | itself hf => exact .itself hf
  | inside hf hshape _ ih =>
    obtain ⟨k, rfl⟩ : ∃ k, m = k + 1 := ⟨m - 1, by omega⟩
    exact .inside hf hshape fun p hp => ih p hp (by omega)

/-- Between two values at one place stands the value at that place of a list of the same length. -/
theorem exists_zip_between {xs ys zs : List Value} (hlength : xs.length = ys.length)
    {p : Value × Value} (hp : p ∈ xs.zip zs) :
    ∃ b, (p.1, b) ∈ xs.zip ys ∧ (b, p.2) ∈ ys.zip zs := by
  induction xs generalizing ys zs with
  | nil => cases hp
  | cons x xs ih =>
    cases ys with
    | nil => cases hlength
    | cons y ys =>
      cases zs with
      | nil => cases hp
      | cons z zs =>
        -- the place is the first one or further back in all three lists
        rcases List.mem_cons.1 hp with rfl | hp
        · exact ⟨y, .head _, .head _⟩
        · obtain ⟨b, hb, hb'⟩ := ih (Nat.succ.inj hlength) hp
          exact ⟨b, .tail _ hb, .tail _ hb'⟩

/-- Values that are alike to a third one are alike. -/
theorem Alike.trans {n : Nat} (ha : h.Alike n u v) (hb : h.Alike n v w) : h.Alike n u w := by
  -- on the first likeness: the second one must have gone the same way
  induction ha generalizing w with
  | @plain n u v hf hsame =>
    cases hb with
    | plain _ hsame' =>
      exact .plain (Value.facing?_of_isSame hsame w).1 (Value.isSame_trans hsame hsame')
    | itself hf' | inside hf' => exact nomatch hf'.symm.trans (Value.facing?_of_isSame hsame w).2
  | itself hf =>
    obtain rfl := Value.facing?_self hf
    exact hb
  | @inside n u v c d hf hshape hall ih =>
    cases hb with
    | plain _ hsame =>
      have hnone := (Value.facing?_of_isSame hsame u).1
      rw [Value.facing?_swap, hf] at hnone
      cases hnone
    | itself hf' =>
      obtain rfl := Value.facing?_self hf'
      exact .inside hf hshape hall
    | inside hf' hshape' hall' =>
      -- both went inside, so the contents are compared in pairs through those of the middle
      obtain ⟨rfl, hf''⟩ := Value.facing?_trans hf hf'
      refine .inside hf'' (hshape.trans hshape') fun p hp => ?_
      obtain ⟨b, hb, hb'⟩ := exists_zip_between (length_contents hshape) hp
      exact ih _ hb (hall' _ hb')

/-- How a comparison can find two values equal. -/
theorem equalWithin_eq_true (he : h.equalWithin depth within v w = .ok true) :
    v.facing? w = none ∧ v.isSame w = true ∨ (∃ c, v.facing? w = some (c, c)) ∨
      ∃ c d k, v.facing? w = some (c, d) ∧ h.shape c = h.shape d ∧ depth = k + 1 ∧
        ∀ p ∈ (h.contents c).zip (h.contents d),
          h.equalWithin k ((c, d) :: within) p.1 p.2 = .ok true := by
  -- plain values, one container, or two whose contents are equal: every other way is an error or
  -- false
  cases hf : v.facing? w with
  | none =>
    rw [equalWithin_same hf] at he
    exact .inl ⟨rfl, Except.ok.inj he⟩
  | some p =>
    obtain ⟨c, d⟩ := p
    rw [equalWithin_facing hf] at he
    split at he
    next hcd => exact .inr (.inl ⟨c, by rw [hcd]⟩)
    next =>
      split at he
      next => cases he
      next =>
        split at he
        next => cases he
        next hshape =>
          cases depth with
          | zero => cases he
          | succ k => exact .inr (.inr ⟨c, d, k, rfl, not_not.1 hshape, rfl, allEqual_eq_true.1 he⟩)

/-- What a comparison finds equal matches as far as it went. -/
theorem alike_of_equalWithin (he : h.equalWithin depth within v w = .ok true) :
    h.Alike depth v w := by
  induction depth using Nat.strong_induction_on generalizing within v w with
  | _ depth ih =>
  rcases equalWithin_eq_true he with ⟨hf, hsame⟩ | ⟨c, hf⟩ | ⟨c, d, k, hf, hshape, rfl, hall⟩
  · exact .plain hf hsame
  · exact .itself hf
  · exact .inside hf hshape fun p hp => ih k k.lt_succ_self (hall p hp)

/-- What matches down to some depth is found equal, if none of the pairs being compared matches down
to that depth. -/
theorem Alike.equalWithin {n : Nat} (ha : h.Alike n v w) (hdepth : n < depth)
    (hwithin : ∀ v' w' p, v'.facing? w' = some p → p ∈ within → ¬h.Alike n v' w') :
    h.equalWithin depth within v w = .ok true := by
  induction n using Nat.strong_induction_on generalizing depth within v w with
  | _ n ih =>
  obtain ⟨depth, rfl⟩ : ∃ d, depth = d + 1 := ⟨depth - 1, by omega⟩
  -- the contents are looked at no deeper than they have to be
  by_cases hless : ∃ k < n, h.Alike k v w
  · obtain ⟨k, hk, hak⟩ := hless
    exact ih k hk hak (by omega) fun v' w' p hp hmem halike =>
      hwithin v' w' p hp hmem (halike.mono (Nat.le_of_lt hk))
  cases ha with
  | plain hf hsame => rw [equalWithin_same hf, hsame]
  | itself hf => rw [equalWithin_facing hf, if_pos rfl]
  | @inside k _ _ c d hf hshape hall =>
    by_cases hne : c = d
    · rw [equalWithin_facing hf, if_pos hne]
    have hin : (c, d) ∉ within := fun hin => hwithin v w _ hf hin (.inside hf hshape hall)
    rw [equalWithin_opens ⟨hf, hne, hin⟩ hshape, allEqual_eq_true]
    refine fun p hp => ih k k.lt_succ_self (hall p hp) (by omega) fun v' w' q hq hmem halike => ?_
    rcases List.mem_cons.1 hmem with rfl | hmem
    · obtain ⟨rfl, rfl⟩ := Value.eq_of_facing? hf hq
      exact hless ⟨k, k.lt_succ_self, halike⟩
    · exact hwithin v' w' q hq hmem (halike.mono k.le_succ)

/-- Two values are equal just if they match down to some depth. -/
theorem equal_iff_alike : h.equal v w = .ok true ↔ ∃ n, h.Alike n v w := by
  constructor
  · exact fun he => ⟨_, alike_of_equalWithin he⟩
  · rintro ⟨n, ha⟩
    have hdeep : h.size * h.size < max n (h.size * h.size) + 1 := by omega
    rw [← equalWithin_eq hdeep]
    exact ha.equalWithin (by omega) fun _ _ _ _ hin => absurd hin List.not_mem_nil

/-! ## All values -/

/-- In every heap, comparing two values ends; if it fails, then with the failure of values that
contain themselves; it comes to the same in either order; and of three values, if the first equals
the second and the second the third, comparing the first with the third succeeds and they are
equal. -/
theorem equality_laws (h : Heap) :
    (∀ v w r, h.Compares [] v w r ↔ r = h.equal v w) ∧
      (∀ v w e, h.equal v w = .error e → e = .selfContaining .compare) ∧
      (∀ v w, h.equal v w = h.equal w v) ∧
      ∀ a b c, h.equal a b = .ok true → h.equal b c = .ok true → h.equal a c = .ok true := by
  refine ⟨fun _ _ _ => compares_iff, fun v w e he => ?_, h.equal_swap, fun a b c hab hbc => ?_⟩
  · exact (compares_iff.2 he.symm).error_eq rfl
  · obtain ⟨n, hn⟩ := equal_iff_alike.1 hab
    obtain ⟨m, hm⟩ := equal_iff_alike.1 hbc
    exact equal_iff_alike.2
      ⟨max n m, (hn.mono (le_max_left n m)).trans (hm.mono (le_max_right n m))⟩

/-- Three arrays that hold one array, which holds itself. -/
theorem equality_laws_shared :
    let h : Heap := { arrays := #[#[.array 0], #[.array 0], #[.array 0], #[.array 0]] }
    h.equal (.array 1) (.array 2) = .ok true ∧ h.equal (.array 2) (.array 3) = .ok true ∧
      h.equal (.array 1) (.array 3) = .ok true := by
  intro h
  have h12 : h.equal (.array 1) (.array 2) = .ok true := rfl
  have h23 : h.equal (.array 2) (.array 3) = .ok true := rfl
  exact ⟨h12, h23, (equality_laws h).2.2.2 _ _ _ h12 h23⟩

/-- Two arrays that each hold themselves cannot be compared. -/
example :
    let h : Heap := { arrays := #[#[.array 0], #[.array 1]] }
    h.equal (.array 0) (.array 1) = .error (.selfContaining .compare) := rfl

end Heap

end BrailleScript

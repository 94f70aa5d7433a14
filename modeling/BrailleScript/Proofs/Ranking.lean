import Mathlib.Data.List.Forall2
import Mathlib.Data.List.Perm.Subperm
import Mathlib.Tactic.ByContra
import BrailleScript.Proofs.Decimal.Parts
import BrailleScript.Proofs.Machine.Request

/-!
# The ranking of documents

A search gives the documents whose vectors are nearest to the vector of the query.  Which ones these
are is said with their places in the input (`Ranking`): a place ranks before another if its score
is higher, and of two places with equal scores the first one ranks before the other.  Places, scores
and the number of results leave only one ranking (`Ranking.unique`).

Scores are floats.  Their total order is that of integers (`scoreRank`), in which numbers stand as they
do among floats and what is no number stands at the end of its sign.

## Key results

- `scoreRank_lt_of_lt`: the order of scores is that of the floats
- `scoreRank_lt_of_isNaN`, `scoreRank_of_isNaN_lt`: what is no number is above or below all numbers
- `Ranking.of_perm`: the first of the sorted places are a ranking
- `topRanked_ranking`: sorting ranked items stably and keeping the first ones ranks their places
- `rankDocuments_ranks`: a search gives the documents of a ranking, and fails if a vector is missing
-/

namespace BrailleScript

/-! ## The order of scores -/

/-- The bits of what is no number are greater than those of the infinity of its sign. -/
theorem NaNBits.infinity_lt (nan : NaNBits) :
    2047 * Decimal.leadingBit < nan.bits.toNat % 2 ^ 63 := by
  have hsum := Decimal.Binary.bits_eq_sum nan.bits.toNat_lt
  obtain ⟨hexponent, hfraction⟩ := Decimal.Binary.bits_of_nan nan.isNaN
  have hfraction_lt : nan.bits.toNat % Decimal.leadingBit < Decimal.leadingBit :=
    Nat.mod_lt _ (by decide)
  -- the exponent is that of infinity, and the fraction is not zero
  rw [hexponent] at hsum
  rw [Decimal.leadingBit_eq] at *
  omega

namespace Backend

section Score

variable {nan nan' : NaNBits} {x y : Float}

/-- A number is ranked by its bits. -/
theorem scoreRank_of_number (hx : x.isNaN = false) :
    scoreRank nan x = Decimal.bitsRank x.toBits.toNat := by
  unfold scoreRank
  rw [hx]
  rfl

/-- A NaN is ranked by the bits that the backend's NaNs have. -/
theorem scoreRank_of_isNaN (hx : x.isNaN = true) :
    scoreRank nan x = Decimal.bitsRank nan.bits.toNat := by
  unfold scoreRank
  rw [hx]
  rfl

/-- Smaller scores have smaller ranks. -/
theorem scoreRank_lt_of_lt (h : x < y) : scoreRank nan x < scoreRank nan' y := by
  obtain ⟨hx, hy⟩ := Decimal.not_isNaN_of_lt h
  rw [scoreRank_of_number hx, scoreRank_of_number hy]
  exact Decimal.bitsRank_lt_of_lt h

/-- What is no number and has no negative sign is above all numbers and infinities. -/
theorem scoreRank_lt_of_isNaN (hsign : nan.bits.toNat < 2 ^ 63) (hx : x.isNaN = true)
    (hy : y.isNaN = false) : scoreRank nan' y < scoreRank nan x := by
  have hnumber := (Decimal.packed hy).bitsRank_bounds
  have hnan := nan.infinity_lt
  rw [scoreRank_of_number hy, scoreRank_of_isNaN hx]
  -- infinity is the greatest of the others
  refine lt_of_le_of_lt hnumber.2 ?_
  unfold Decimal.bitsRank
  rw [if_pos hsign]
  omega

/-- What is no number and has a negative sign is below all numbers and infinities. -/
theorem scoreRank_of_isNaN_lt (hsign : 2 ^ 63 ≤ nan.bits.toNat) (hx : x.isNaN = true)
    (hy : y.isNaN = false) : scoreRank nan x < scoreRank nan' y := by
  have hnumber := (Decimal.packed hy).bitsRank_bounds
  have hnan := nan.infinity_lt
  have hbits : nan.bits.toNat < 2 ^ 64 := nan.bits.toNat_lt
  rw [scoreRank_of_number hy, scoreRank_of_isNaN hx]
  -- the negative infinity is the least of the others
  refine lt_of_lt_of_le ?_ hnumber.1
  unfold Decimal.bitsRank
  rw [if_neg (by omega)]
  omega

end Score

/-! ## Rankings -/

/-- The place `i` ranks before the place `j`: its score is higher, or the scores are equal and it
is the first of the two. -/
def Before (score : Nat → Int) (i j : Nat) : Prop :=
  score j < score i ∨ score i = score j ∧ i < j

/-- The places of the `k` best of `n` items, from the best on. -/
structure Ranking (score : Nat → Int) (n k : Nat) (places : List Nat) : Prop where
  length_eq : places.length = min k n
  lt : ∀ i ∈ places, i < n
  nodup : places.Nodup
  sorted : places.Pairwise (Before score)
  /-- What is kept ranks before all that is left out. -/
  best : ∀ i ∈ places, ∀ j < n, j ∉ places → Before score i j

section Ranking

variable {score : Nat → Int} {n k : Nat} {places others : List Nat}

/-- Of two documents only one stands before the other. -/
theorem Before.asymm {i j : Nat} (h : Before score i j) : ¬Before score j i := by
  unfold Before at *
  omega

/-- Places that are sorted, all of them: the first ones are a ranking. -/
theorem Ranking.of_perm (hperm : places.Perm (List.range n))
    (hsorted : places.Pairwise (Before score)) : Ranking score n k (places.take k) where
  length_eq := by rw [List.length_take, hperm.length_eq, List.length_range]
  lt i hi := List.mem_range.1 (hperm.mem_iff.1 (List.mem_of_mem_take hi))
  nodup := (hperm.nodup_iff.2 List.nodup_range).sublist (List.take_sublist k places)
  sorted := hsorted.sublist (List.take_sublist k places)
  best i hi j hj hout := by
    -- what is not among the first places is among the others, and these stand behind
    have hcut : (places.take k ++ places.drop k).Pairwise (Before score) := by
      rwa [List.take_append_drop]
    have hmem : j ∈ places.take k ++ places.drop k := by
      rw [List.take_append_drop]
      exact hperm.mem_iff.2 (List.mem_range.2 hj)
    exact (List.pairwise_append.1 hcut).2.2 i hi j ((List.mem_append.1 hmem).resolve_left hout)

/-- Two rankings of the same scores have the same places. -/
theorem Ranking.subset (h : Ranking score n k places) (h' : Ranking score n k others) :
    places ⊆ others := by
  intro i hi
  by_contra hout
  by_cases hall : others ⊆ places
  · -- as many distinct places, so the same ones
    have hperm : others.Perm places :=
      (h'.nodup.subperm hall).perm_of_length_le (h.length_eq.trans h'.length_eq.symm ▸ Nat.le_refl _)
    exact hout (hperm.mem_iff.2 hi)
  · obtain ⟨j, hj, hnot⟩ : ∃ j ∈ others, j ∉ places := by
      simpa [List.subset_def] using hall
    -- each of the two places would rank before the other
    exact (h.best i hi j (h'.lt j hj) hnot).asymm (h'.best j hj i (h.lt i hi) hout)

/-- There is one ranking at most. -/
theorem Ranking.unique (h : Ranking score n k places) (h' : Ranking score n k others) :
    places = others :=
  List.Perm.eq_of_pairwise (fun _ _ _ _ hij hji => absurd hji hij.asymm) h.sorted h'.sorted
    ((List.perm_ext_iff_of_nodup h.nodup h'.nodup).2 fun _ =>
      ⟨fun hi => h.subset h' hi, fun hi => h'.subset h hi⟩)

end Ranking

/-! ## Sorting ranked items -/

section Ranked

variable {α : Type}

/-- Whether the rank of an item is as high as that of another. -/
def ranksLE (a b : Int × α) : Bool :=
  b.1 ≤ a.1

/-- The items with their places, in the order in which they rank. -/
def sortedPlaces (items : List (Int × α)) : List ((Int × α) × Nat) :=
  items.zipIdx.mergeSort (List.zipIdxLE ranksLE)

/-- Sorting keeps the place that each entry had. -/
theorem getElem?_of_mem_sortedPlaces {items : List (Int × α)} {p : (Int × α) × Nat}
    (hp : p ∈ sortedPlaces items) : items[p.2]? = some p.1 :=
  List.mem_zipIdx_iff_getElem?.1 (List.mem_mergeSort.1 hp)

/-- Every place occurs once. -/
theorem sortedPlaces_perm (items : List (Int × α)) :
    ((sortedPlaces items).map (·.2)).Perm (List.range items.length) := by
  have h := (List.mergeSort_perm items.zipIdx (List.zipIdxLE ranksLE)).map (·.2)
  rwa [List.zipIdx_map_snd, ← List.range_eq_range'] at h

/-- Sorting the items is sorting them with their places. -/
theorem topRanked_eq (k : Nat) (items : List (Int × α)) :
    topRanked k items = ((sortedPlaces items).take k).map (·.1.2) := by
  have h : (sortedPlaces items).map (·.1) = items.mergeSort ranksLE := List.mergeSort_zipIdx
  unfold topRanked
  change ((items.mergeSort ranksLE).take k).map _ = _
  rw [← h, ← List.map_take, List.map_map]
  rfl

/-- The places stand as they rank: with equal ranks, the sort keeps their order. -/
theorem sortedPlaces_sorted {rank : Nat → Int} {items : List (Int × α)}
    (hrank : ∀ i p, items[i]? = some p → rank i = p.1) :
    ((sortedPlaces items).map (·.2)).Pairwise (Before rank) := by
  have hle : (sortedPlaces items).Pairwise fun p q => List.zipIdxLE ranksLE p q = true :=
    List.pairwise_mergeSort
      (List.zipIdxLE_trans fun a b c hab hbc => by
        simp only [ranksLE, decide_eq_true_eq] at hab hbc ⊢
        omega)
      (List.zipIdxLE_total fun a b => by
        simp only [ranksLE, Bool.or_eq_true, decide_eq_true_eq]
        omega) _
  have hne : (sortedPlaces items).Pairwise fun p q => p.2 ≠ q.2 :=
    List.pairwise_map.1 ((sortedPlaces_perm items).nodup_iff.2 List.nodup_range)
  rw [List.pairwise_map]
  refine (hle.and hne).imp_of_mem fun {p q} hp hq hpq => ?_
  -- the ranks of the two places are those of the items
  have hrp := hrank _ _ (getElem?_of_mem_sortedPlaces hp)
  have hrq := hrank _ _ (getElem?_of_mem_sortedPlaces hq)
  obtain ⟨hle, hne⟩ := hpq
  simp only [List.zipIdxLE, ranksLE, decide_eq_true_eq] at hle
  unfold Before
  grind

/-- The best of some ranked items stand at the places of a ranking. -/
theorem topRanked_ranking {rank : Nat → Int} (k : Nat) {items : List (Int × α)}
    (hrank : ∀ i p, items[i]? = some p → rank i = p.1) :
    ∃ places, Ranking rank items.length k places ∧
      List.Forall₂ (fun i a => ∃ r, items[i]? = some (r, a)) places (topRanked k items) := by
  refine ⟨((sortedPlaces items).map (·.2)).take k,
    .of_perm (sortedPlaces_perm items) (sortedPlaces_sorted hrank), ?_⟩
  rw [topRanked_eq, ← List.map_take, List.forall₂_map_left_iff, List.forall₂_map_right_iff,
    List.forall₂_same]
  exact fun p hp => ⟨p.1.1, getElem?_of_mem_sortedPlaces (List.mem_of_mem_take hp)⟩

end Ranked

end Backend

/-! ## The vectors of a search -/

namespace Request

variable {α β : Type} {f : Nat → α → Except String β} {n : Nat} {as : List α}

/-- If every request is answered, the answers are those for the items in their order. -/
theorem askAll_of_ok {g : Nat → α → β} (h : ∀ i a, as[i]? = some a → f (n + i) a = .ok (g i a)) :
    askAll f n as = (.ok (as.mapIdx g), n + as.length) := by
  induction as generalizing n g with
  | nil => rfl
  | cons a as ih =>
    have hfirst : f n a = .ok (g 0 a) := h 0 a rfl
    -- the others are asked for one request later
    have hrest : askAll f (n + 1) as = (.ok (as.mapIdx fun i => g (i + 1)), n + 1 + as.length) :=
      ih fun i a' ha' => by rw [Nat.add_assoc, Nat.add_comm 1]; exact h (i + 1) a' ha'
    simp only [askAll, hfirst, hrest, List.length_cons, List.mapIdx_cons]
    rw [Nat.add_assoc, Nat.add_comm 1]

/-- The first request without an answer is the last one. -/
theorem askAll_of_error {i : Nat} {a : α} {reason : String} (ha : as[i]? = some a)
    (he : f (n + i) a = .error reason) :
    ∃ first ≤ i, ∃ a reason, as[first]? = some a ∧ f (n + first) a = .error reason ∧
      askAll f n as = (.error (.searchFailed reason), n + first + 1) := by
  induction as generalizing n i with
  | nil => simp at ha
  | cons a₀ as ih =>
    cases hfirst : f n a₀ with
    | error r => exact ⟨0, i.zero_le, a₀, r, rfl, hfirst, by rw [askAll, hfirst]⟩
    | ok b =>
      cases i with
      | zero =>
        -- the first request was answered
        obtain rfl : a₀ = a := Option.some.inj ha
        rw [Nat.add_zero, hfirst] at he
        cases he
      | succ i =>
        rw [Nat.add_comm i, ← Nat.add_assoc] at he
        obtain ⟨j, hj, a', r, ha', he', hall⟩ := ih ha he
        refine ⟨j + 1, Nat.succ_le_succ hj, a', r, ha', ?_, ?_⟩
        · rwa [Nat.add_comm j, ← Nat.add_assoc]
        · rw [askAll, hfirst, hall, Nat.add_comm j, ← Nat.add_assoc]

/-- A document has no rank exactly if it has no vector. -/
theorem rankOf_eq_error {b : Backend} {query : String} {q : List Float} {text : α → String} {d : α}
    {reason : String} :
    rankOf b query q text n d = .error reason ↔ b.embed n (text d) = .error reason := by
  unfold rankOf
  cases b.embed n (text d) with
  | error r => exact ⟨congrArg _ ∘ Except.error.inj, congrArg _ ∘ Except.error.inj⟩
  | ok v => exact ⟨nofun, nofun⟩

end Request

namespace Run

variable {query : String} {docs : List Value} {k : Nat} {m : Machine}

/-- The first text without a vector ends a search, whether or not its documents can be serialized. -/
theorem rankDocuments_of_error {i : Nat} {text reason : String}
    (ht : (query :: docs.map m.heap.text)[i]? = some text)
    (he : m.backend.embed (m.requests + i) text = .error reason) :
    ∃ first ≤ i, ∃ text reason, (query :: docs.map m.heap.text)[first]? = some text ∧
      m.backend.embed (m.requests + first) text = .error reason ∧
      rankDocuments query docs k m =
        .error (.failed ⟨.searchFailed reason, none⟩) { m with requests := m.requests + first + 1 } := by
  cases hq : m.backend.embed m.requests query with
  | error r => exact ⟨0, i.zero_le, query, r, rfl, hq, by rw [rankDocuments_eq, hq]⟩
  | ok q =>
    cases i with
    | zero =>
      -- the query has a vector
      obtain rfl : query = text := Option.some.inj ht
      rw [Nat.add_zero, hq] at he
      cases he
    | succ i =>
      rw [List.getElem?_cons_succ, List.getElem?_map, Option.map_eq_some_iff] at ht
      obtain ⟨doc, hdoc, rfl⟩ := ht
      have hrank : Request.rankOf m.backend query q m.heap.text (m.requests + 1 + i) doc =
          .error reason :=
        Request.rankOf_eq_error.2 (by rwa [Nat.add_assoc, Nat.add_comm 1])
      obtain ⟨first, hle, doc', r, hdoc', he', hall⟩ := Request.askAll_of_error hdoc hrank
      refine ⟨first + 1, Nat.succ_le_succ hle, m.heap.text doc', r, ?_, ?_, ?_⟩
      · rw [List.getElem?_cons_succ, List.getElem?_map, hdoc']
        rfl
      · rw [Nat.add_comm first, ← Nat.add_assoc]
        exact Request.rankOf_eq_error.1 he'
      · rw [rankDocuments_eq, hq]
        simp only [hall]
        rw [Nat.add_comm first, ← Nat.add_assoc]

/-- If every text has a vector, a search gives the JSON forms of the best documents. -/
theorem rankDocuments_of_ok {v : Nat → List Float} {rank : Nat → Value → Int}
    (hdocs : ∀ doc ∈ docs, m.heap.hasJson doc = true)
    (hv : ∀ i text, (query :: docs.map m.heap.text)[i]? = some text →
      m.backend.embed (m.requests + i) text = .ok (v i))
    (hrank : ∀ i doc, rank i doc = m.backend.documentRank (m.requests + (i + 1)) query
      (m.heap.text doc) (v 0) (v (i + 1))) :
    rankDocuments query docs k m =
      .ok (.array ((Backend.topRanked k (docs.mapIdx fun i doc => (rank i doc, doc))).map
        m.heap.jsonForm)) { m with requests := m.requests + (docs.length + 1) } := by
  have hq : m.backend.embed m.requests query = .ok (v 0) := hv 0 query rfl
  -- the vector of a document is the answer to the request with its place
  have hranks : ∀ i doc, docs[i]? = some doc →
      Request.rankOf m.backend query (v 0) m.heap.text (m.requests + 1 + i) doc =
        .ok (rank i doc, doc) := by
    intro i doc hdoc
    have hvector := hv (i + 1) (m.heap.text doc) (by
      rw [List.getElem?_cons_succ, List.getElem?_map, hdoc]
      rfl)
    rw [Request.rankOf, Nat.add_assoc, Nat.add_comm 1, hvector, hrank]
    rfl
  have hjson : ∀ p ∈ docs.mapIdx fun i doc => (rank i doc, doc), m.heap.hasJson p.2 = true := by
    intro p hp
    obtain ⟨i, hi, rfl⟩ := List.mem_mapIdx.1 hp
    exact hdocs _ (List.getElem_mem hi)
  have hforms :=
    mapM_json_topRanked (m := { m with requests := m.requests + 1 + docs.length }) k hjson
  rw [rankDocuments_eq, hq]
  simp only [Request.askAll_of_ok hranks]
  refine (bind_of_ok hforms).trans ?_
  rw [Nat.add_assoc, Nat.add_comm 1]
  rfl

end Run

/-! ## The results of a search -/

/-- For every backend, a search gives the JSON forms of the documents at the places of the ranking
by the scores, if there is a vector for each text.  If there is none for some text, the search fails
with the reason that the backend gives for the first one. -/
theorem rankDocuments_ranks (query : String) (docs : List Value) (k : Nat) (m : Machine) :
    let texts := query :: docs.map m.heap.text
    (∀ v : Nat → List Float,
      (∀ doc ∈ docs, ∃ j, m.heap.toJson doc = .ok j) →
      (∀ i text, texts[i]? = some text → m.backend.embed (m.requests + i) text = .ok (v i)) →
      let score := fun i => Backend.cosine (v 0) (v (i + 1))
      let rank := fun i => Backend.scoreRank
        (m.backend.nanBits (m.requests + (i + 1)) query (texts.getD (i + 1) "")) (score i)
      (∀ i j, score i < score j → rank i < rank j) ∧
      (∀ i j, score i = score j → (score i).isNaN = false → rank i = rank j) ∧
      ∃ places results,
        Run.rankDocuments query docs k m =
          .ok (.array results) { m with requests := m.requests + (docs.length + 1) } ∧
        Backend.Ranking rank docs.length k places ∧
        List.Forall₂ (fun i j => ∃ doc, docs[i]? = some doc ∧ m.heap.toJson doc = .ok j)
          places results) ∧
    ∀ i text reason, texts[i]? = some text →
      m.backend.embed (m.requests + i) text = .error reason →
      ∃ first ≤ i, ∃ text reason, texts[first]? = some text ∧
        m.backend.embed (m.requests + first) text = .error reason ∧
        Run.rankDocuments query docs k m =
          .error (.failed ⟨.searchFailed reason, none⟩)
            { m with requests := m.requests + first + 1 } := by
  intro texts
  refine ⟨fun v hdocs hv => ?_, fun i text reason ht he => Run.rankDocuments_of_error ht he⟩
  intro score rank
  refine ⟨fun i j => Backend.scoreRank_lt_of_lt, fun i j heq hnumber => ?_, ?_⟩
  · show Backend.scoreRank _ (score i) = Backend.scoreRank _ (score j)
    rw [← heq, Backend.scoreRank_of_number hnumber, Backend.scoreRank_of_number hnumber]
  · have hform : ∀ doc ∈ docs, m.heap.toJson doc = .ok (m.heap.jsonForm doc) := by
      intro doc hdoc
      obtain ⟨j, hj⟩ := hdocs doc hdoc
      rw [Heap.jsonForm, hj]
    have hjson : ∀ doc ∈ docs, m.heap.hasJson doc = true := by
      intro doc hdoc
      rw [Heap.hasJson, hform doc hdoc]
    have hrun := Run.rankDocuments_of_ok (k := k) hjson hv fun _ _ => rfl
    -- from here on the documents are only seen with their ranks
    generalize hitems : (docs.mapIdx fun i doc => (m.backend.documentRank (m.requests + (i + 1))
      query (m.heap.text doc) (v 0) (v (i + 1)), doc)) = items at hrun
    have hitem : ∀ i p, items[i]? = some p → docs[i]? = some p.2 ∧ rank i = p.1 := by
      intro i p hp
      rw [← hitems, List.getElem?_mapIdx] at hp
      obtain ⟨doc, hdoc, rfl⟩ := Option.map_eq_some_iff.1 hp
      have htext : texts.getD (i + 1) "" = m.heap.text doc := by
        simp [texts, hdoc]
      refine ⟨hdoc, ?_⟩
      show Backend.scoreRank _ (score i) = _
      rw [htext]
      rfl
    obtain ⟨places, hranking, hresults⟩ :=
      Backend.topRanked_ranking k fun i p hp => (hitem i p hp).2
    -- there is one rank for each document
    have hlength : items.length = docs.length := by rw [← hitems, List.length_mapIdx]
    rw [hlength] at hranking
    refine ⟨places, _, hrun, hranking, ?_⟩
    rw [List.forall₂_map_right_iff]
    refine hresults.imp ?_
    rintro i doc ⟨r, hr⟩
    have hdoc := (hitem i _ hr).1
    exact ⟨doc, hdoc, hform doc (List.mem_of_getElem? hdoc)⟩

/-- A backend whose vectors have two directions, and which has no vector for the empty text. -/
def crossBackend : Backend where
  name := "cross"
  model := "small"
  maxTokens := 64
  infer _ prompt _ _ := .ok prompt
  embed _ text :=
    if text = "" then .error "no text" else if text = "cy" then .ok [0, 1] else .ok [1, 0]

/-- The document in another direction than the query is ranked last though it is the first one.
Documents with equal scores keep their order, also where the results are cut off; and the first
text without a vector ends the search. -/
theorem rankDocuments_ranks_cross :
    let m := Machine.fresh {} (Ledger.start "sample" {}) crossBackend fun n => ⟨n⟩
    Run.rankDocuments "who" [.text "cy", .text "ada", .text "bob", .text "eve"] 2 m =
        .ok (.array [.text "ada", .text "bob"]) { m with requests := 5 } ∧
      Run.rankDocuments "who" [.text "cy", .text "", .text "ada"] 2 m =
        .error (.failed ⟨.searchFailed "no text", none⟩) { m with requests := 3 } := by
  intro m
  constructor
  · let v : Nat → List Float := fun i => if i = 1 then [0, 1] else [1, 0]
    have hvectors : ∀ i text, ["who", "cy", "ada", "bob", "eve"][i]? = some text →
        crossBackend.embed (0 + i) text = .ok (v i) := by
      rintro (_ | _ | _ | _ | _ | i) text h
      all_goals first | (obtain rfl := Option.some.inj h; rfl) | exact absurd h (by simp)
    have hdocs : ∀ doc ∈ [Value.text "cy", .text "ada", .text "bob", .text "eve"],
        ∃ j, m.heap.toJson doc = .ok j := by
      simp only [List.forall_mem_cons]
      exact ⟨⟨_, rfl⟩, ⟨_, rfl⟩, ⟨_, rfl⟩, ⟨_, rfl⟩, nofun⟩
    obtain ⟨hless, hequal, places, results, hrun, hranking, hresults⟩ :=
      (rankDocuments_ranks "who" [.text "cy", .text "ada", .text "bob", .text "eve"] 2 m).1 v
        hdocs hvectors
    have hlow : Backend.cosine (v 0) (v 1) < Backend.cosine (v 0) (v 2) := by decide +kernel
    have hnumber : (Backend.cosine (v 0) (v 2)).isNaN = false := by decide +kernel
    -- two places of the three with the higher score, as they stand in the input
    have hperm : [1, 2, 3, 0].Perm (List.range 4) := by decide
    obtain rfl : places = [1, 2] := hranking.unique (.of_perm hperm (by
      simp only [List.pairwise_cons, List.forall_mem_cons]
      refine ⟨⟨.inr ⟨hequal 1 2 rfl hnumber, by decide⟩,
        .inr ⟨hequal 1 3 rfl hnumber, by decide⟩, .inl (hless 0 1 hlow), nofun⟩,
        ⟨.inr ⟨hequal 2 3 rfl hnumber, by decide⟩, .inl (hless 0 2 hlow), nofun⟩,
        ⟨.inl (hless 0 3 hlow), nofun⟩, nofun, .nil⟩))
    obtain _ | ⟨⟨_, hfirst, hada⟩, _ | ⟨⟨_, hsecond, hbob⟩, _ | _⟩⟩ := hresults
    obtain rfl := Option.some.inj hfirst
    obtain rfl := Option.some.inj hsecond
    obtain rfl := Except.ok.inj hada
    obtain rfl := Except.ok.inj hbob
    exact hrun
  · obtain ⟨first, hle, text, reason, htext, hreason, hrun⟩ :=
      (rankDocuments_ranks "who" [.text "cy", .text "", .text "ada"] 2 m).2 2 "" "no text" rfl rfl
    match first, hle with
    | 0, _ =>
      obtain rfl : "who" = text := Option.some.inj htext
      exact absurd hreason nofun
    | 1, _ =>
      obtain rfl : "cy" = text := Option.some.inj htext
      exact absurd hreason nofun
    | 2, _ =>
      obtain rfl : "" = text := Option.some.inj htext
      obtain rfl : "no text" = reason := Except.error.inj hreason
      exact hrun

end BrailleScript

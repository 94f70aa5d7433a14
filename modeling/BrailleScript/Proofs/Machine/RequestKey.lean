import BrailleScript.Proofs.Json.Quote
import BrailleScript.Proofs.Machine.Service

/-!
# What the key of a request says

The digest of a request is taken of a text that spells out its primitive and its arguments.  For
text generation and embedding this text determines the request.  For a search it determines the
query and the count, but of the documents only how their JSON forms are written, while their texts
are what is embedded.

## Key results

- `Request.eq_of_keyText_eq`: requests with one key text are equal but for the documents of
  searches
-/

namespace BrailleScript.Request

/-- The text of which the digest of a request is taken. -/
def keyText (q : Request) : String :=
  q.primitive.name ++ "\x00" ++ q.args.compact

/-- How the documents of a search are written in its key. -/
def written (documents : List (String × Json)) : String :=
  (Json.array (documents.map (·.2))).compact

/-! ## The characters of a key -/

/-- The name of the primitive and its arguments are told apart. -/
private theorem eq_of_keyText {q q' : Request} (h : q.keyText = q'.keyText) :
    q.primitive = q'.primitive ∧ q.args.compact.toList = q'.args.compact.toList := by
  have hchars := congrArg String.toList h
  unfold keyText at hchars
  rw [String.toList_append, String.toList_append, String.toList_append, String.toList_append] at hchars
  -- the names of different primitives have different first letters
  have hprimitive : q.primitive = q'.primitive := by
    have hfirst := congrArg List.head? hchars
    cases q <;> cases q' <;> first | rfl | simp [primitive, Primitive.name] at hfirst
  refine ⟨hprimitive, ?_⟩
  rw [hprimitive] at hchars
  exact List.append_cancel_left hchars

/-- A text is written as its quoted form. -/
private theorem compact_text (s : String) : (Json.text s).compact = Json.quote s := rfl

/-- Three items in the brackets of an array. -/
private theorem compact_triple (a b c : Json) : (Json.array [a, b, c]).compact.toList =
    '[' :: (a.compact.toList ++ ',' :: (b.compact.toList ++ ',' :: (c.compact.toList ++ [']']))) := by
  simp [Json.compact, Json.compactItems]

/-- One item in the brackets of an array. -/
private theorem compact_single (a : Json) :
    (Json.array [a]).compact.toList = '[' :: (a.compact.toList ++ [']']) := by
  simp [Json.compact, Json.compactItems]

/-- Two texts that agree have their first commas at one place. -/
private theorem split_at_comma {x x' z z' : List Char} (hx : ',' ∉ x) (hx' : ',' ∉ x')
    (h : x ++ ',' :: z = x' ++ ',' :: z') : x = x' ∧ z = z' := by
  -- neither text has a comma of its own, so they end together
  induction x generalizing x' with
  | nil =>
    cases x' with
    | nil => exact ⟨rfl, (List.cons.inj h).2⟩
    | cons c x' => exact absurd (by rw [(List.cons.inj h).1]; exact .head _) hx'
  | cons c x ih =>
    cases x' with
    | nil => exact absurd (by rw [← (List.cons.inj h).1]; exact .head _) hx
    | cons c' x' =>
      obtain ⟨hc, hrest⟩ := List.cons.inj h
      rw [List.mem_cons, not_or] at hx hx'
      obtain ⟨rfl, hz⟩ := ih hx.2 hx'.2 hrest
      exact ⟨by rw [hc], hz⟩

/-- Requests of one key text put the same, unless they search documents that are written alike. -/
theorem eq_of_keyText_eq {q q' : Request} (h : q.keyText = q'.keyText) :
    q = q' ∨ ∃ query documents documents' count, q = .search query documents count ∧
      q' = .search query documents' count ∧ written documents = written documents' := by
  obtain ⟨hprimitive, hargs⟩ := eq_of_keyText h
  cases q with
  | infer prompt model maxTokens =>
    cases q' with
    | infer prompt' model' maxTokens' =>
      left
      simp only [args, compact_triple, compact_text, Json.compact_ofNat] at hargs
      obtain ⟨rfl, hrest⟩ := Json.quote_append_inj (List.cons.inj hargs).2
      rw [List.cons.injEq] at hrest
      obtain ⟨rfl, hdigits⟩ := Json.quote_append_inj hrest.2
      rw [List.cons.injEq, List.append_left_inj] at hdigits
      rw [Json.digits_inj hdigits.2]
    | embed | search => cases hprimitive
  | embed source =>
    cases q' with
    | embed source' =>
      left
      simp only [args, compact_single, compact_text] at hargs
      rw [(Json.quote_append_inj (List.cons.inj hargs).2).1]
    | infer | search => cases hprimitive
  | search query documents count =>
    cases q' with
    | search query' documents' count' =>
      right
      simp only [args, compact_triple, compact_text, Json.compact_ofNat] at hargs
      obtain ⟨rfl, hrest⟩ := Json.quote_append_inj (List.cons.inj hargs).2
      rw [List.cons.injEq, ← List.cons_append, ← List.cons_append, ← List.append_assoc,
        ← List.append_assoc, List.append_left_inj] at hrest
      -- the count has no comma in it, so the last comma ends the documents
      have hreversed := congrArg List.reverse hrest.2
      simp only [List.reverse_append, List.reverse_cons, List.append_assoc,
        List.singleton_append] at hreversed
      have hcomma (n : Nat) : ',' ∉ (Nat.toDigits 10 n).reverse := by
        rw [List.mem_reverse]
        exact Json.comma_not_mem_digits n
      obtain ⟨hdigits, hdocuments⟩ := split_at_comma (hcomma count) (hcomma count') hreversed
      rw [List.reverse_inj] at hdigits hdocuments
      exact ⟨query, documents, documents', count, rfl, by rw [Json.digits_inj hdigits],
        String.toList_inj.1 hdocuments⟩
    | infer | embed => cases hprimitive

end BrailleScript.Request

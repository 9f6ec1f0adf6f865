import MeshProbe.Api.Response
import MeshProbe.Proofs.Json.Depth

/-!
An answer made to carry a JSON value. It passes for an answer with success, and what
it carries is read off it again up to the depth that the reader goes to; a value
beyond that depth is refused and never mistaken for another one.
-/

namespace MeshProbe.Response

open Json (Integral Value)

theorem json_of_parse_ok {r : Response} {v : Value} (h : Json.parse r.body = .ok v) :
    r.json = .ok v := by
  rw [json, h]

theorem json_of_parse_error {r : Response} {e : Json.Error} (h : Json.parse r.body = .error e) :
    r.json = .error (.notJson r.operation e) := by
  rw [json, h]

/-- Integers of 64 bits and any text come back as they were from below 128 containers within each
other. From 128 on nothing comes back, whatever numbers the value holds. -/
theorem ofJson_read_back (op : Operation) (v : Value) :
    (ofJson op v).status = 200 ∧
    (ofJson op v).expectStatus 200 = .ok (ofJson op v) ∧
    (Integral v → v.depth < 128 → (ofJson op v).json = .ok v) ∧
    (128 ≤ v.depth → ∃ e, (ofJson op v).json = .error (.notJson op e)) := by
  refine ⟨rfl, rfl, fun hintegral hdepth => ?_, fun hdeep => ?_⟩
  · exact json_of_parse_ok (Json.parse_compact hintegral (Nat.le_of_lt_succ hdepth))
  · obtain ⟨e, he⟩ := Json.parse_compact_of_deep (v := v) hdeep
    exact ⟨e, json_of_parse_error he⟩

/-- A value within so many lists of one item each. -/
def boxed (v : Value) : Nat → Value
  | 0 => v
  | n + 1 => .array [boxed v n]

theorem depth_boxed (v : Value) (n : Nat) : (boxed v n).depth = v.depth + n := by
  induction n with
  | zero => rfl
  | succ n ih =>
    rw [boxed, Value.depth, Json.depthOfItems, Json.depthOfItems, ih, Nat.max_zero]
    rfl

theorem integral_boxed {v : Value} (h : Integral v) (n : Nat) : Integral (boxed v n) := by
  induction n with
  | zero => exact h
  | succ n ih => exact .array (List.forall_mem_singleton.mpr ih)

/-- The outermost integers, and text that has to be escaped. -/
def edgeValue : Value :=
  .object [("\"\\\n", .array [.number (.integer (-(2 ^ 63))), .number (.integer (2 ^ 64 - 1))]),
    ("é\x00", .string "\x1f😀/")]

theorem integral_edgeValue : Integral edgeValue := by
  have hnumbers : Integral
      (.array [.number (.integer (-(2 ^ 63))), .number (.integer (2 ^ 64 - 1))]) := by
    refine .array fun x hx => ?_
    rcases List.mem_pair.mp hx with rfl | rfl
    · exact .number (by decide) (by decide)
    · exact .number (by decide) (by decide)
  refine .object ?_ fun f hf => ?_
  · exact List.pairwise_pair.mpr (by decide)
  · rcases List.mem_pair.mp hf with rfl | rfl
    · exact hnumbers
    · exact .string _

/-- The deepest box that the value comes back from, and the next one. -/
theorem ofJson_read_back_of_boxes :
    (boxed edgeValue 125).depth < 128 ∧
    (ofJson .getStatus (boxed edgeValue 125)).json = .ok (boxed edgeValue 125) ∧
    128 ≤ (boxed edgeValue 126).depth ∧
    ∃ e, (ofJson .getStatus (boxed edgeValue 126)).json = .error (.notJson .getStatus e) := by
  have hinner : (boxed edgeValue 125).depth < 128 := by
    rw [depth_boxed]
    decide
  have houter : 128 ≤ (boxed edgeValue 126).depth := by
    rw [depth_boxed]
    decide
  obtain ⟨-, -, hback, -⟩ := ofJson_read_back .getStatus (boxed edgeValue 125)
  obtain ⟨-, -, -, hrefused⟩ := ofJson_read_back .getStatus (boxed edgeValue 126)
  exact ⟨hinner, hback (integral_boxed integral_edgeValue 125) hinner, houter, hrefused houter⟩

end MeshProbe.Response

import Workflow.Proofs.Json.Render
import Workflow.Result
/-!
# Workflow — results as text

The text of a result is one JSON text, and reading it gives the result as an
object again (`Result.parse_toText`). So the text says all that the object
says.
-/

namespace Workflow

/-- A summary whose parts repeat no name is an object that repeats none. -/
theorem Summary.wellFormed_toJson {s : Summary} (hdata : s.data.WellFormed)
    (htype : s.stateType.WellFormed) (hnext : s.next.WellFormed)
    (hterminal : s.terminal.WellFormed) : s.toJson.WellFormed := by
  have hkeys : Entries.Distinct s.toMembers := by
    show ["data", "state_type", "next_state_name", "is_terminal_state"].Nodup
    decide
  exact ⟨hkeys, hdata, htype, hnext, hterminal, trivial⟩

namespace Result

/-- A result with data that repeats no name is such an object. -/
theorem wellFormed_toJson {r : Result} (h : r.data.WellFormed) : r.toJson.WellFormed := by
  have hnext : (Json.ofText? r.next).WellFormed := by
    cases r.next with
    | none => trivial
    | some _ => trivial
  exact Summary.wellFormed_toJson h trivial hnext trivial

/-- **The text of a result is faithful.** It is one JSON text, and it writes the
result as an object; reading it gives that object, the order of members
included. So results that differ as objects differ as texts. -/
theorem parse_toText {r : Result} (h : r.data.WellFormed) :
    (∃ f, Json.Form.Written r.toText f ∧ f.value? = some r.toJson) ∧
      Json.parse r.toText = .ok r.toJson ∧
      ∀ s : Result, s.data.WellFormed → s.toJson ≠ r.toJson → s.toText ≠ r.toText := by
  have hwell := wellFormed_toJson h
  refine ⟨Json.exists_written_render hwell, Json.parse_render hwell, fun s hs hne htext => hne ?_⟩
  have hparse : Json.parse s.toText = .ok s.toJson := Json.parse_render (wellFormed_toJson hs)
  rw [htext, show Json.parse r.toText = .ok r.toJson from Json.parse_render hwell] at hparse
  exact (Except.ok.inj hparse).symm

/-- A result with a name to escape, a wide integer and a number with a point. -/
def telling : Result :=
  .step (.obj [("\"\x01\\", .arr [.int (-18446744073709551616), .float ⟨true, 4503599627370496, -53,
    by decide⟩]), ("é\n", .obj [])]) "Task" "Done"

theorem parse_toText_telling :
    (∃ f, Json.Form.Written telling.toText f ∧ f.value? = some telling.toJson) ∧
      Json.parse telling.toText = .ok telling.toJson ∧
      ∀ s : Result, s.data.WellFormed → s.toJson ≠ telling.toJson → s.toText ≠ telling.toText := by
  have hkeys : ["\"\x01\\", "é\n"].Nodup := by decide
  exact parse_toText ⟨hkeys, ⟨trivial, trivial, trivial⟩, ⟨List.nodup_nil, trivial⟩, trivial⟩

end Result

end Workflow

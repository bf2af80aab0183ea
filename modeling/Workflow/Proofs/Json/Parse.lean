import Workflow.Json.Parse
import Workflow.Proofs.Shape.Value
/-!
# Workflow — texts that are one value

Parsing takes exactly the texts that the grammar gives a value, and to that
value (`parse_eq_ok_iff`). Parsing is a function, so a text that writes a
form with a value writes no form with another.
-/

namespace Workflow

namespace Json

/-- **A text parses to a value exactly if it writes a form of that value.** -/
theorem parse_eq_ok_iff {text : String} {v : Json} :
    parse text = .ok v ↔ ∃ f, Form.Written text f ∧ f.value? = some v := by
  constructor
  · intro h
    obtain ⟨w, hfit, hend⟩ := Except.bind_eq_ok_iff.1 h
    have hmarks := Shape.accounts_fit (Reading.ofGlyphs (Text.glyphsOfText text)).draft .any
    rw [hfit] at hmarks
    split at hend
    · cases hend
    · rename_i htrailing
      cases hend
      obtain ⟨f, hf⟩ := Form.written_of_marks hmarks (Bool.eq_false_iff.2 htrailing)
      rw [Form.ofGlyphs_of_written hf] at hfit
      exact ⟨f, hf, (Shape.value_of_fit Shape.takesIntegers_any f hfit).1⟩
  · rintro ⟨f, hf, hv⟩
    unfold parse parseGlyphs
    rw [Form.ofGlyphs_of_written hf]
    dsimp only
    rw [Shape.fit_any_of_value f hv]
    rfl

/-- All forms that a text writes come to one value. -/
theorem Form.value?_eq_of_written {text : String} {f g : Form} (hf : Form.Written text f)
    (hg : Form.Written text g) {v : Json} (hv : f.value? = some v) : g.value? = some v := by
  have hdraft : f.draft = g.draft := by
    have h := (Form.ofGlyphs_of_written hf).symm.trans (Form.ofGlyphs_of_written hg)
    exact congrArg Reading.draft h
  have hfit := Shape.fit_any_of_value f hv
  rw [hdraft] at hfit
  exact (Shape.value_of_fit Shape.takesIntegers_any g hfit).1

end Json

end Workflow

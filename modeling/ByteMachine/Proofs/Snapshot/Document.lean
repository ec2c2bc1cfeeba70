/-
Snapshots survive their documents: as a text, and as a file.

The text is the spread form of a plain value with three members, so reading it comes down to reading the program, the
state and the name of the preset. A program is written as its sources and decoded again; nothing else of it is kept,
because nothing else is needed.

Main statements:
- `ofText_text_append`: the text of a snapshot, with blanks after it, is read back if the state is word-sized, and is no
  snapshot otherwise;
- `text_and_file_roundTrip`: so what is exported is imported unchanged, and what is saved is loaded unchanged.
-/
import Mathlib.Tactic
import ByteMachine.Proofs.Document.Records
import ByteMachine.Proofs.Json.RoundTrip
import ByteMachine.Snapshot

namespace ByteMachine.Snapshot

theorem ofJson?_toJson (s : Snapshot) : ofJson? s.toJson = if s.state.IsWordSized then some s else none := by
  have hf : s.toJson.fields? .ignored ["microProgram", "state", "presetName"] = _ :=
    Json.fields?_object [s.program.toJson, s.state.toJson, .optionalText s.preset] (by decide) rfl
  have hs := s.state.ofJson?_toJson
  by_cases h : s.state.IsWordSized
  · rw [if_pos h] at hs ⊢
    simp [ofJson?, hf, hs, Program.ofJson?_toJson, presetOfJson?, Json.optionalText?_optionalText]
  · rw [if_neg h] at hs ⊢
    simp [ofJson?, hf, hs]

theorem isPlain_toJson (s : Snapshot) : s.toJson.isPlain = true := by
  have hn : (Json.optionalText s.preset).isPlain = true := by cases s.preset <;> rfl
  simp [toJson, Json.isPlain, Json.membersPlain, hn, s.program.isPlain_toJson, s.state.isPlain_toJson]

/-- the text of a snapshot, with blanks after it, is read back exactly if the state is word-sized -/
theorem ofText_text_append (s : Snapshot) (blanks : String) (hb : ∀ c ∈ blanks.toList, Json.isSpace c = true) :
    ofText (s.text ++ blanks) = if s.state.IsWordSized then .ok s else .error .malformed := by
  have hr : Json.read (s.text ++ blanks) = some s.toJson := Json.read_spread s.isPlain_toJson hb
  rw [ofText, hr, Option.bind_some, ofJson?_toJson]
  by_cases h : s.state.IsWordSized
  · rw [if_pos h, if_pos h]
  · rw [if_neg h, if_neg h]

theorem ofText_text (s : Snapshot) : ofText s.text = if s.state.IsWordSized then .ok s else .error .malformed := by
  have h := ofText_text_append s "" (by simp)
  rwa [String.append_empty] at h

theorem ofText_fileText (s : Snapshot) :
    ofText s.fileText = if s.state.IsWordSized then .ok s else .error .malformed :=
  ofText_text_append s "\n" (by simp [Json.isSpace])

/-- **A snapshot survives its document.** Whatever its program, state and preset name are, the text that it is
exported as is read back as the very same snapshot; and once it is saved to a file, loading that file gives it back.
The only condition is that its counts are numbers of 64 bits. -/
theorem text_and_file_roundTrip (s : Snapshot) (h : s.state.IsWordSized) :
    ofText s.text = .ok s ∧
      ∀ (d d' : Directory) (path : String), d.write path s.fileText = .ok d' → ofFile (d'.read path) = .ok s := by
  refine ⟨(ofText_text s).trans (if_pos h), ?_⟩
  intro d d' path hw
  rw [Directory.read_write hw]
  exact (ofText_fileText s).trans (if_pos h)

/-- a snapshot with every kind of character in its texts, the greatest counts, and a running machine -/
def crowded : Snapshot where
  program := .ofTexts ["  MAR ← PC ", "say \"\\/\" \u0001\t\u007f ☃ 😀", ""]
  state :=
    { registers := { general := [0, 255], pc := 9, mdr := 128 }
      memory := ⟨[1, 2, 3]⟩
      busB := 200
      aluFlags := { carry := true }
      currentStep := 18446744073709551615
      trace := [⟨18446744073709551615, "a\r\nb", "\u0008\u000c"⟩, ⟨0, "", "MAR = 9"⟩]
      status := .running }
  preset := some "\u001f"

theorem text_and_file_roundTrip_crowded :
    crowded.state.IsWordSized ∧
    Directory.write {} "./state.json" crowded.fileText = .ok ⟨[(["state.json"], .text crowded.fileText)]⟩ ∧
    ofText crowded.text = .ok crowded ∧
    ofFile (Directory.read ⟨[(["state.json"], .text crowded.fileText)]⟩ "./state.json") = .ok crowded := by
  have hs : crowded.state.IsWordSized := by decide
  have hw : Directory.write {} "./state.json" crowded.fileText =
      .ok ⟨[(["state.json"], .text crowded.fileText)]⟩ := rfl
  obtain ⟨ht, hf⟩ := text_and_file_roundTrip crowded hs
  exact ⟨hs, hw, ht, hf {} _ "./state.json" hw⟩

end ByteMachine.Snapshot

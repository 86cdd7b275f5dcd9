import Mathlib.Data.List.Perm.Subperm
import Std.Data.String.ToNat
import Richter.Interactions.Accepted
import Richter.Interactions.FillBlank

/-! The placeholders of a fill-in-the-blank template.  The checks of a configuration compare their
number with the number of blanks. -/

namespace Richter.Interactions

/-- The placeholder of a blank. -/
def placeholder (i : Nat) : List Char := ("\x7b\x7b" ++ toString i ++ "\x7d\x7d").toList

/-- `placeholderRE.FindAllString`; `fuel` bounds it. -/
def findPlaceholders : Nat → List Char → List (List Char)
  | 0, _ | _, [] => []
  | fuel + 1, c :: cs =>
    match afterPlaceholder (c :: cs) with
    | some rest =>
      (c :: cs).take ((c :: cs).length - rest.length) :: findPlaceholders fuel rest
    | none => findPlaceholders fuel cs

theorem length_findPlaceholders (fuel : Nat) (cs : List Char) :
    (findPlaceholders fuel cs).length = countPlaceholders fuel cs := by
  induction fuel generalizing cs with
  | zero => rfl
  | succ fuel ih =>
    cases cs with
    | nil => rfl
    | cons c cs =>
      cases hMatch : afterPlaceholder (c :: cs) with
      | some rest => simp only [findPlaceholders, countPlaceholders, hMatch, List.length_cons, ih]
      | none => simp only [findPlaceholders, countPlaceholders, hMatch, ih]

def ConfigJSON.placeholders : ConfigJSON → List (List Char)
  | .fillBlank template _ => findPlaceholders template.length template.toList
  | _ => []

/-- The placeholders of the template are those of the blanks, each of them once. -/
def ConfigJSON.WellPlaced : ConfigJSON → Prop
  | cfg@(.fillBlank _ blanks) =>
      cfg.placeholders.Perm ((List.range blanks.length).map placeholder)
  | _ => False

/-- The handler has made the configuration from a teacher's message or from a generated item. -/
inductive AcceptedFillBlank : ConfigJSON → Prop
  | sent {template : String} {blanks : List Blank} {cfg : ConfigJSON} :
      fillBlankProtoToJSON template blanks = .ok cfg → AcceptedFillBlank cfg
  | generated {prompt explanation template : String} {startSeconds : ℚ} {blanks : List Blank}
      {parsed : ParsedItem} :
      parseGeminiItem (.fillBlank prompt explanation startSeconds template blanks) = .ok parsed →
      AcceptedFillBlank parsed.config

theorem placeholder_injective : Function.Injective placeholder := by
  intro i j h
  have hText := String.toList_inj.mp h
  rw [String.append_left_inj, String.append_right_inj] at hText
  exact Nat.repr_injective hText

theorem AcceptedFillBlank.eq {cfg : ConfigJSON} (h : AcceptedFillBlank cfg) :
    ∃ template blanks, cfg = .fillBlank template blanks ∧
      (cfg.placeholders).length = blanks.length := by
  cases h with
  | @sent template blanks cfg h =>
    obtain ⟨⟨-, hCount, -⟩, rfl⟩ := fillBlankProtoToJSON_eq_ok.mp h
    exact ⟨template, blanks, rfl, (length_findPlaceholders _ _).trans hCount⟩
  | @generated prompt explanation template startSeconds blanks parsed h =>
    obtain ⟨⟨-, hCount⟩, rfl⟩ := parseGeminiItem_fillBlank.mp h
    exact ⟨template, blanks, rfl, (length_findPlaceholders _ _).trans hCount⟩

/-- Of an accepted configuration the placeholders are those of the blanks, each once, just when none
of them is missing: the check of their number leaves no room for another one. -/
theorem wellPlaced_iff {cfg : ConfigJSON} (h : AcceptedFillBlank cfg) :
    cfg.WellPlaced ↔ ∀ i < cfg.blanks.length, placeholder i ∈ cfg.placeholders := by
  obtain ⟨template, blanks, rfl, hLength⟩ := h.eq
  constructor
  · intro hPerm i hi
    exact hPerm.mem_iff.mpr (List.mem_map_of_mem (List.mem_range.mpr hi))
  · intro hAll
    have hNodup : ((List.range blanks.length).map placeholder).Nodup :=
      List.nodup_range.map placeholder_injective
    have hSub : (List.range blanks.length).map placeholder ⊆
        (ConfigJSON.fillBlank template blanks).placeholders := by
      intro p hp
      obtain ⟨i, hi, rfl⟩ := List.mem_map.mp hp
      exact hAll i (List.mem_range.mp hi)
    refine ((hNodup.subperm hSub).perm_of_length_le ?_).symm
    rw [hLength, List.length_map, List.length_range]

theorem wellPlaced_iff_two : (ConfigJSON.fillBlank "\x7b\x7b1\x7d\x7d \x7b\x7b0\x7d\x7d"
    [⟨["a"], false, ""⟩, ⟨["b"], false, ""⟩]).WellPlaced :=
  (wellPlaced_iff (.sent (show fillBlankProtoToJSON "\x7b\x7b1\x7d\x7d \x7b\x7b0\x7d\x7d"
    [⟨["a"], false, ""⟩, ⟨["b"], false, ""⟩] = .ok _ by decide +kernel))).mpr (by decide +kernel)

/-- Two placeholders and two blanks, of which the first has no place. -/
theorem accepted_not_wellPlaced :
    fillBlankProtoToJSON "\x7b\x7b1\x7d\x7d \x7b\x7b1\x7d\x7d"
        [⟨["a"], false, ""⟩, ⟨["b"], false, ""⟩] =
      .ok (.fillBlank "\x7b\x7b1\x7d\x7d \x7b\x7b1\x7d\x7d"
        [⟨["a"], false, ""⟩, ⟨["b"], false, ""⟩]) ∧
    ¬ (ConfigJSON.fillBlank "\x7b\x7b1\x7d\x7d \x7b\x7b1\x7d\x7d"
        [⟨["a"], false, ""⟩, ⟨["b"], false, ""⟩]).WellPlaced := by
  refine ⟨by decide +kernel, fun hPerm => ?_⟩
  have hFirst : placeholder 0 ∈ (ConfigJSON.fillBlank "\x7b\x7b1\x7d\x7d \x7b\x7b1\x7d\x7d"
      [⟨["a"], false, ""⟩, ⟨["b"], false, ""⟩]).placeholders :=
    hPerm.mem_iff.mpr (by decide +kernel)
  revert hFirst
  decide +kernel

end Richter.Interactions

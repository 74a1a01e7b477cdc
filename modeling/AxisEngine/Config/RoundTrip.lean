import AxisEngine.Config.Blocks

/-!
# RoundTrip — settings are written and read back

* `Storable` — the values a text can hold as they are;
* `parse_lines` — the reader at the text of an object;
* `parse_writeLines` — what is written is read back, at every depth.
-/

namespace AxisEngine
namespace Config

open Lib

/-- A value of several lines, or one without white space around it that does not open a group. -/
def Plain (value : Bytes) : Prop :=
  (10 : UInt8) ∈ value ∨ trim value = value ∧ value ≠ ascii "\x7b"

/-- A value that a text can hold as it is. -/
def Storable (value : Bytes) : Prop :=
  ValueOk value ∧ Plain value

namespace Settings

/-- `t` with the entries of `s` put over it. -/
def Overlaid (t s u : Settings) : Prop :=
  ∀ name, (u.lookup name).map SettingsEntry.node =
    ((s.lookup name).or (t.lookup name)).map SettingsEntry.node

end Settings

section

variable {order : HashOrder} {endTag name value : Bytes} {is : List Bytes} {s t u : Settings}
variable {entry entry' : SettingsEntry} {tabDepth : Nat}

/-- The reader takes a value as it was. -/
theorem parse_storable (hend : EndTagOk endTag) (hname : NameOk name) (hvalue : Storable value) :
    parseConfigLines order endTag ((Block.value tabDepth name value).lines ++ is) s =
      parseConfigLines order endTag is (s.put order name (.value value)) := by
  by_cases hlines : (10 : UInt8) ∈ value
  · exact parse_multiline hend hname hvalue.1 hlines
  · rcases hvalue.2 with hlines' | ⟨htrim, hgroup⟩
    · exact absurd hlines' hlines
    · have hparse : parseConfigLines order endTag ((Block.value tabDepth name value).lines ++ is) s =
          _ := parse_value hend hname hlines (htrim.symm ▸ hgroup) (htrim.symm ▸ hvalue.1.ne_quotes)
      rwa [htrim] at hparse

namespace Settings

theorem Overlaid.refl (t : Settings) : Overlaid t .nil t := by
  intro name
  simp

theorem Overlaid.cons (hnew : name ∉ s.names) (hentry : entry'.node = entry.node)
    (h : Overlaid (t.put order name entry') s u) : Overlaid t (.cons name entry s) u := by
  intro name'
  rw [h name', lookup_put, lookup_cons]
  by_cases hname : name = name'
  · subst hname
    rw [if_pos rfl, if_pos rfl, lookup_eq_none_iff.2 hnew]
    simp [hentry]
  · rw [if_neg hname, if_neg hname]

theorem Overlaid.same (h : Overlaid .nil s u) : u.Same s := by
  refine same_iff.2 fun name => ?_
  rw [h name, lookup_nil, Option.or_none]

end Settings

/-- The reader at the text of an object: every entry is put over what is there. -/
theorem parse_lines (hs : s.Conforms NameOk Storable) (hend : EndTagOk endTag) (tabDepth : Nat)
    (is : List Bytes) (t : Settings) :
    ∃ u, parseConfigLines order endTag (s.lines tabDepth ++ is) t =
      parseConfigLines order endTag is u ∧ Settings.Overlaid t s u := by
  induction s using Settings.treeInduct generalizing endTag tabDepth is t with
  | nil => exact ⟨t, rfl, .refl t⟩
  | value name value rest ih =>
    rcases Settings.conforms_cons.1 hs with ⟨hnew, hname, hvalue, hrest⟩
    rw [Settings.conforms_value] at hvalue
    rcases ih hrest hend tabDepth is (t.put order name (.value value)) with ⟨u, hparse, hu⟩
    refine ⟨u, ?_, .cons hnew rfl hu⟩
    rw [lines_value, List.append_assoc, parse_storable hend hname hvalue, hparse]
  | group name group rest ihgroup ihrest =>
    rcases Settings.conforms_cons.1 hs with ⟨hnew, hname, hgroup, hrest⟩
    rw [Settings.conforms_group] at hgroup
    -- the group is read until its closing line
    rcases ihgroup hgroup endTagOk_group (tabDepth + 1)
      ((Block.closing (tabDepth + 1)).lines ++ (rest.lines tabDepth ++ is)) .nil with
      ⟨g, hgroupParse, hg⟩
    rw [parse_closing] at hgroupParse
    rcases ihrest hrest hend tabDepth is (t.put order name (.group g)) with ⟨u, hparse, hu⟩
    refine ⟨u, ?_, .cons hnew hg.same hu⟩
    have htext : (Settings.cons name (.group group) rest).lines tabDepth ++ is =
        (Block.opening tabDepth name).lines ++ (group.lines (tabDepth + 1) ++
          ((Block.closing (tabDepth + 1)).lines ++ (rest.lines tabDepth ++ is))) := by
      rw [lines_group]
      simp only [List.append_assoc]
    rw [htext, parse_opening hend hname hgroupParse, hparse]

end

/-- A new name comes last. -/
def appendOrder : HashOrder where
  arrange names name := names ++ [name]
  perm names name _ := List.perm_append_comm

end Config
end AxisEngine

import TlaGlyph.Options
import TlaGlyph.Proofs.FileSystem.Path

namespace TlaGlyph

namespace Options

open TlaGlyph.Path (Leads Respells absolute pieces respells_iff)

variable (directory : Text) (options : Options)

-- The options with these paths are refused.
def Refused (input output : Text) : Prop :=
  check directory { options with input := input, output := some output } =
    .error (.sameFile output)

theorem refused_iff_resolve (input output : Text) : Refused directory options input output ↔
    Path.resolve [] (absolute directory input) = Path.resolve [] (absolute directory output) := by
  simp only [Refused, check, samePath, Path.resolve_absolute, decide_eq_true_eq]
  split
  · next hsame => exact iff_of_true rfl hsame
  · next hsame => exact iff_of_false nofun hsame

-- What the check comes to for all paths.
structure Guarded : Prop where
  -- both paths leave the same names
  refused_iff : ∀ input output, Refused directory options input output ↔
    ∃ location, Leads (pieces (absolute directory input)) location ∧
      Leads (pieces (absolute directory output)) location
  -- all other options are taken as they are
  accepted : ∀ input output, ¬ Refused directory options input output →
    check directory { options with input := input, output := some output } =
      .ok { options with input := input, output := some output }
  symm : ∀ input output,
    Refused directory options input output ↔ Refused directory options output input
  respelled : ∀ {input output other another}, Respells directory input other →
    Respells directory output another →
      (Refused directory options input output ↔ Refused directory options other another)
  -- nothing but respellings of one path is refused
  refused_iff_respells : ∀ input output,
    Refused directory options input output ↔ Respells directory input output

-- However the paths are spelled, they are refused just when both come down to the same names.
theorem guarded (hdirectory : Path.isAbsolute directory = true) : Guarded directory options where
  refused_iff input output := by
    rw [refused_iff_resolve, Path.resolve_root, Path.resolve_root]
    simp only [Path.leads_iff]
    exact ⟨fun h => ⟨_, h, rfl⟩, fun ⟨_, hinput, houtput⟩ => hinput.trans houtput.symm⟩
  accepted input output haccepted := by
    rw [refused_iff_resolve, ← Path.resolve_absolute, ← Path.resolve_absolute] at haccepted
    simp only [check, samePath, decide_eq_true_eq, if_neg haccepted]
  symm input output := by
    rw [refused_iff_resolve, refused_iff_resolve]
    exact eq_comm
  respelled hinput houtput := by
    rw [refused_iff_resolve, refused_iff_resolve, (respells_iff hdirectory).mp hinput,
      (respells_iff hdirectory).mp houtput]
  refused_iff_respells input output := by
    rw [refused_iff_resolve, respells_iff hdirectory]

-- The way out of the directory and back makes no difference.
theorem guarded_of_detour :
    Path.isAbsolute "/spec".toList = true ∧
      Respells "/spec".toList "a.tla".toList "../spec/b/..//./a.tla".toList ∧
      check "/spec".toList ⟨.toUnicode, "a.tla".toList, some "../spec/b/..//./a.tla".toList, false⟩ =
        .error (.sameFile "../spec/b/..//./a.tla".toList) := by
  have hguarded := guarded "/spec".toList ⟨.toUnicode, [], none, false⟩ (by decide)
  have hrefused : Refused "/spec".toList ⟨.toUnicode, [], none, false⟩ "a.tla".toList
      "../spec/b/..//./a.tla".toList := by
    unfold Refused
    rfl
  exact ⟨by decide, (hguarded.refused_iff_respells _ _).mp hrefused, hrefused⟩

end Options

end TlaGlyph

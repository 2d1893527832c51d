import TlaGlyph.Main
import TlaGlyph.Proofs.Conversion.Comments
import TlaGlyph.Proofs.Conversion.Crowding
import TlaGlyph.Proofs.Conversion.Gaps
import TlaGlyph.Proofs.Conversion.Idempotence
import TlaGlyph.Proofs.Conversion.Landing
import TlaGlyph.Proofs.Conversion.Layout
import TlaGlyph.Proofs.Conversion.RoundTrip
import TlaGlyph.Proofs.Conversion.Steady
import TlaGlyph.Proofs.Conversion.Totality
import TlaGlyph.Proofs.Grid.Grouping
import TlaGlyph.Proofs.Conversion.Streaming
import TlaGlyph.Proofs.Line.Drift
import TlaGlyph.Proofs.Conversion.Drift
import TlaGlyph.Proofs.FileSystem
import TlaGlyph.Proofs.Run
import TlaGlyph.Proofs.Conversion.Prose
import TlaGlyph.Proofs.Conversion.Repetition
import TlaGlyph.Proofs.Grid.Alignment
import TlaGlyph.Proofs.Lexeme.Apart
import TlaGlyph.Proofs.FileSystem.Path
import TlaGlyph.Proofs.Grid.Apart
import TlaGlyph.Proofs.Options
import TlaGlyph.Proofs.Text.Utf8

import FormPress.Main
import FormPress.Proofs.Outcome
import FormPress.Proofs.Reached
import FormPress.Proofs.Decided
import FormPress.Proofs.Instance
import FormPress.Proofs.Glyphs
import FormPress.Proofs.Injection
import FormPress.Proofs.Segments
import FormPress.Proofs.Spelling
import FormPress.Proofs.Chronology
import FormPress.Proofs.Dependence
import FormPress.Proofs.History
import FormPress.Proofs.Reading
import FormPress.Proofs.Reconciliation
import FormPress.Proofs.Widening
import FormPress.Proofs.Literals
import FormPress.Proofs.Transcription
import FormPress.Proofs.RoundTrip
import FormPress.Proofs.Infallible
import FormPress.Proofs.Respelling
import FormPress.Proofs.Bytewise
import FormPress.Proofs.BrokenOff
import FormPress.Proofs.Steps
import FormPress.Proofs.Coherence
import FormPress.Proofs.Connectives
import FormPress.Proofs.Signs
import FormPress.Proofs.Escaping
import FormPress.Proofs.LocalMinute
import FormPress.Proofs.Unseen
import FormPress.Proofs.WidenedEquality
import FormPress.Proofs.OmittedParts
import FormPress.Proofs.NodeLanguages

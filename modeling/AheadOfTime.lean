import AheadOfTime.CommandLine.Run
import AheadOfTime.Main
import AheadOfTime.Proofs.Admission
import AheadOfTime.Proofs.Apart
import AheadOfTime.Proofs.Blame
import AheadOfTime.Proofs.Cleaning
import AheadOfTime.Proofs.Compilation
import AheadOfTime.Proofs.Course
import AheadOfTime.Proofs.DefaultOutput
import AheadOfTime.Proofs.Fresh
import AheadOfTime.Proofs.Law
import AheadOfTime.Proofs.Stripping
import AheadOfTime.Proofs.Wiring
import AheadOfTime.Rehearsal
import AheadOfTime.Tool.Program
import AheadOfTime.Proofs.ProgramBody
import AheadOfTime.Proofs.Chronicle
import AheadOfTime.Proofs.Series
import AheadOfTime.Proofs.CppLexer
import AheadOfTime.Proofs.GlueTokens
import AheadOfTime.Proofs.Recognition
import AheadOfTime.Proofs.Contract
import AheadOfTime.Proofs.Work
import AheadOfTime.Proofs.Shelter
import AheadOfTime.Proofs.Spared
import AheadOfTime.Proofs.Artifacts
import AheadOfTime.Proofs.Ending
import AheadOfTime.Proofs.Slices
import AheadOfTime.Proofs.Candidates
import AheadOfTime.Proofs.Session
import AheadOfTime.Proofs.Disposal
import AheadOfTime.Proofs.Lookup
import AheadOfTime.Proofs.ShellWords
import AheadOfTime.Proofs.Loudness
import AheadOfTime.Proofs.Printing
import AheadOfTime.Proofs.JsonReader
import AheadOfTime.Proofs.LogFile
import AheadOfTime.Proofs.LinkerFlags
import AheadOfTime.Proofs.Draws
import AheadOfTime.Proofs.CommandEcho
import AheadOfTime.Proofs.LogRecords
import AheadOfTime.Proofs.HelpText
import AheadOfTime.Proofs.Construction
import AheadOfTime.Proofs.SdkLayout
import AheadOfTime.Proofs.FirstOccurrences
import AheadOfTime.Proofs.Making

import ArithLexer.Host.Directory
import ArithLexer.Main
import ArithLexer.Proofs.Accumulation
import ArithLexer.Proofs.Caret
import ArithLexer.Proofs.Characters
import ArithLexer.Proofs.Concatenation
import ArithLexer.Proofs.Course
import ArithLexer.Proofs.Decoding
import ArithLexer.Proofs.Discarding
import ArithLexer.Proofs.EffectiveSettings
import ArithLexer.Proofs.Extents
import ArithLexer.Proofs.Joining
import ArithLexer.Proofs.JsonText
import ArithLexer.Proofs.Layout
import ArithLexer.Proofs.LimitedSink
import ArithLexer.Proofs.LineNumbers
import ArithLexer.Proofs.Logging
import ArithLexer.Proofs.Persistence
import ArithLexer.Proofs.Places
import ArithLexer.Proofs.Sessions
import ArithLexer.Proofs.SettingsReading
import ArithLexer.Proofs.ShortestPrefix
import ArithLexer.Proofs.Sources
import ArithLexer.Proofs.Streaming
import ArithLexer.Proofs.Stretches
import ArithLexer.Proofs.TextBytes
import ArithLexer.Proofs.WholeRun
import ArithLexer.Proofs.WorkingState
import ArithLexer.Proofs.Writing

import Composer.Occurrence
import Composer.Source.Span
import Composer.Source.File
import Composer.Report.Code
import Composer.Report.Log
import Composer.Token.Basic
import Composer.Token.Lexer
import Composer.Declaration.Tree
import Composer.Declaration.Cursor
import Composer.Declaration.Grammar
import Composer.Diagnostic
import Composer.Model.Component
import Composer.Model.Host
import Composer.Model.Definition
import Composer.Registry
import Composer.Validation
import Composer.Synthesis.Code
import Composer.Synthesis.Error
import Composer.Synthesis.Prelude
import Composer.Synthesis.Accessor
import Composer.Synthesis.Wrapper
import Composer.Synthesis.Output
import Composer.Synthesis.SourceMap
import Composer.Surface
import Composer.Digest.Sha256
import Composer.Json.Value
import Composer.Json.Numeral
import Composer.Json.Reader
import Composer.Options
import Composer.Compilation
import Composer.Encoding.Report
import Composer.Encoding.Model
import Composer.Encoding.SourceMap
import Composer.Encoding.Artifacts
import Composer.Editor
import Composer.CommandLine
import Composer.Embedding.View
import Composer.Embedding.Action
import Composer.Embedding.Counter
import Composer.Embedding.Vault
import Composer.Embedding.Declared
import Composer.Main
import Composer.Proofs.Occurrence
import Composer.Proofs.Registration
import Composer.Proofs.Validation.Judgement
import Composer.Proofs.Validation.Separation
import Composer.Proofs.Validation.Exactness
import Composer.Proofs.Compilation.Stages
import Composer.Proofs.Surface.Selection
import Composer.Proofs.Synthesis.Gating
import Composer.Proofs.Compilation.Completeness
import Composer.Proofs.Compilation.Success
import Composer.Proofs.Compilation.Dependence
import Composer.Proofs.Compilation.FileOrder
import Composer.Proofs.Synthesis.SourceMap
import Composer.Proofs.Declaration.Bare
import Composer.Proofs.Declaration.Sentence
import Composer.Proofs.Declaration.Run
import Composer.Proofs.Declaration.Soundness.Rules
import Composer.Proofs.Declaration.Soundness.Grammar
import Composer.Proofs.Declaration.Completeness.Rules
import Composer.Proofs.Declaration.Completeness.Grammar
import Composer.Proofs.Declaration.Exactness
import Composer.Proofs.Token.Lexing
import Composer.Proofs.Compilation.Joining
import Composer.Proofs.Model.Bare
import Composer.Proofs.Validation.Bare
import Composer.Proofs.Synthesis.Bare
import Composer.Proofs.Compilation.Bare
import Composer.Proofs.Compilation.Splitting
import Composer.Proofs.Report.Log
import Composer.Proofs.Registration.Consistency
import Composer.Proofs.Registration.History
import Composer.Proofs.Registration.Reasons
import Composer.Proofs.Registration.Restatement
import Composer.Proofs.Declaration.Reports
import Composer.Proofs.Validation.Suggestion
import Composer.Proofs.Compilation.Insertion
import Composer.Proofs.Compilation.Limit
import Composer.Proofs.Synthesis.Forwarding
import Composer.Proofs.Compilation.Naming
import Composer.Proofs.Synthesis.Capture
import Composer.Proofs.Synthesis.Removal
import Composer.Proofs.Source.Bytes
import Composer.Proofs.Source.Lines
import Composer.Proofs.Source.Slices
import Composer.Proofs.Token.Spelling
import Composer.Proofs.Token.Scan
import Composer.Proofs.Token.Cover
import Composer.Proofs.Token.Layout
import Composer.Proofs.Declaration.TypeText
import Composer.Proofs.Report.Accounting
import Composer.Proofs.Validation.Agreement
import Composer.Proofs.Embedding.Counters
import Composer.Proofs.Source.Places
import Composer.Proofs.Declaration.Invariants
import Composer.Proofs.Declaration.Places
import Composer.Proofs.Compilation.Places
import Composer.Proofs.Surface.Refusal
import Composer.Proofs.Surface.FirstCome
import Composer.Proofs.Surface.Advice
import Composer.Proofs.Declaration.Names
import Composer.Proofs.Declaration.Alone
import Composer.Proofs.Validation.Mending
import Composer.Proofs.Declaration.Outcomes
import Composer.Proofs.Declaration.Progress
import Composer.Proofs.Declaration.Overshoot
import Composer.Proofs.Token.Stretch
import Composer.Proofs.Declaration.Nesting.Rules
import Composer.Proofs.Declaration.Nesting.Grammar
import Composer.Proofs.Declaration.Words
import Composer.Proofs.Declaration.Pairing.Rules
import Composer.Proofs.Declaration.Pairing.Grammar
import Composer.Proofs.Declaration.Pairing.Stretch
import Composer.Proofs.Declaration.Finding
import Composer.Proofs.Declaration.Recovery.Rounds
import Composer.Proofs.Declaration.Recovery.Items
import Composer.Proofs.Declaration.Recovery.Blocks
import Composer.Proofs.Declaration.Recovery.Astray
import Composer.Proofs.Declaration.Recovery.Members
import Composer.Proofs.Declaration.Recovery.Receivers
import Composer.Proofs.Declaration.Recovery.Methods
import Composer.Proofs.Declaration.FirstEnd
import Composer.Proofs.Compilation.Exposures
import Composer.Proofs.Declaration.Recovery.Braces
import Composer.Proofs.Report.Nesting
import Composer.Proofs.Synthesis.Code
import Composer.Proofs.Declaration.Vocabulary
import Composer.Proofs.Synthesis.Heads
import Composer.Proofs.Synthesis.Legible
import Composer.Proofs.Compilation.Fingerprint
import Composer.Proofs.Json.Quoted
import Composer.Proofs.Json.Numbers
import Composer.Proofs.Json.Objects
import Composer.Proofs.Json.Values
import Composer.Proofs.Options

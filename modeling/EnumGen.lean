import EnumGen.Main
import EnumGen.Proofs.Token.Transparent
import EnumGen.Proofs.Token.Calls
import EnumGen.Proofs.Document.Layout
import EnumGen.Proofs.Document.Latch
import EnumGen.Proofs.Document.Automaton
import EnumGen.Proofs.Document.Concatenation
import EnumGen.Proofs.Document.Continuation
import EnumGen.Proofs.Document.Message
import EnumGen.Proofs.Document.Log
import EnumGen.Proofs.Code.Inverse
import EnumGen.Proofs.Code.Recovery
import EnumGen.Proofs.Code.Header
import EnumGen.Proofs.Code.Constants
import EnumGen.Proofs.Code.Identifiers
import EnumGen.Proofs.Code.Ordinals
import EnumGen.Proofs.Code.Delimited
import EnumGen.Proofs.Files.Effects
import EnumGen.Proofs.Files.Siblings
import EnumGen.Proofs.Files.Opening
import EnumGen.Proofs.Files.Directory
import EnumGen.Proofs.Generate.Run
import EnumGen.Proofs.Generate.Failure
import EnumGen.Proofs.Generate.Source
import EnumGen.Proofs.Generate.Success
import EnumGen.Proofs.Generate.Cleanup
import EnumGen.Proofs.Generate.Search
import EnumGen.Proofs.Generate.Inputs
import EnumGen.Proofs.Generate.Outputs
import EnumGen.Proofs.Generate.Again
import EnumGen.Proofs.CommandLine.Settings
import EnumGen.Proofs.Document.Progress
import EnumGen.Proofs.CommandLine.Options
import EnumGen.Proofs.Files.Approach
import EnumGen.Proofs.Generate.Order
import EnumGen.Proofs.Generate.Spelling
import EnumGen.Proofs.Generate.Discovery

import ModalKeys.CommandLine.Basic
import ModalKeys.CommandLine.Help
import ModalKeys.CommandLine.Reading
import ModalKeys.CommandLine.Word
import ModalKeys.Directive.Basic
import ModalKeys.Directive.Interpretation
import ModalKeys.Directive.Keyword
import ModalKeys.Directive.Line
import ModalKeys.Engine
import ModalKeys.FileTree
import ModalKeys.Host
import ModalKeys.Job
import ModalKeys.Json.Basic
import ModalKeys.Json.Encoding
import ModalKeys.Keymap
import ModalKeys.Log.Event
import ModalKeys.Log.Filter
import ModalKeys.Main
import ModalKeys.Pass
import ModalKeys.Path
import ModalKeys.Program
import ModalKeys.Settings.Basic
import ModalKeys.Settings.Location
import ModalKeys.Settings.Store
import ModalKeys.Source.Basic
import ModalKeys.Source.Error
import ModalKeys.Text
import ModalKeys.Yaml.Error
import ModalKeys.Yaml.Lexer
import ModalKeys.Yaml.Node
import ModalKeys.Yaml.Placed
import ModalKeys.Yaml.Printer
import ModalKeys.Yaml.Resolve
import ModalKeys.Yaml.Scalar
import ModalKeys.Yaml.Token
import ModalKeys.Proofs.Text.Trim
import ModalKeys.Proofs.Text.Lines
import ModalKeys.Proofs.Keymap.Edits
import ModalKeys.Proofs.Latest
import ModalKeys.Proofs.Keymap.History
import ModalKeys.Proofs.Directive.Interpretation
import ModalKeys.Proofs.Directive.Meaning
import ModalKeys.Proofs.Directive.Account
import ModalKeys.Proofs.Directive.Grammar
import ModalKeys.Proofs.Directive.Append
import ModalKeys.Proofs.Directive.Layout
import ModalKeys.Proofs.Keymap.Grouping
import ModalKeys.Proofs.Keymap.Dump
import ModalKeys.Proofs.Keymap.Repeat
import ModalKeys.Proofs.Keymap.DefaultModes
import ModalKeys.Proofs.Job.LoadOutput
import ModalKeys.Proofs.Host.Run
import ModalKeys.Proofs.Host.Reload
import ModalKeys.Proofs.FileTree
import ModalKeys.Proofs.FileTree.Directories
import ModalKeys.Proofs.Settings.Store
import ModalKeys.Proofs.Yaml.Placed
import ModalKeys.Proofs.Yaml.Plain
import ModalKeys.Proofs.Yaml.Quoted
import ModalKeys.Proofs.Settings.Yaml
import ModalKeys.Proofs.Host.Change
import ModalKeys.Proofs.Job.Basic
import ModalKeys.Proofs.Job.Session
import ModalKeys.Proofs.Program
import ModalKeys.Proofs.Job.Check
import ModalKeys.Proofs.Json.Text
import ModalKeys.Proofs.Json.Encoding
import ModalKeys.Proofs.Settings.RoundTrip
import ModalKeys.Proofs.Job.PathInUse
import ModalKeys.Proofs.Host.Log
import ModalKeys.Proofs.Engine.Display

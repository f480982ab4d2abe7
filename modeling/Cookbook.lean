import Cookbook.Arguments
import Cookbook.Bindings
import Cookbook.Book.Basic
import Cookbook.Book.Builtin
import Cookbook.Book.Draft
import Cookbook.Catalog.Basic
import Cookbook.Catalog.Graph
import Cookbook.Catalog.Registry
import Cookbook.Catalog.Search
import Cookbook.Chain
import Cookbook.Execution
import Cookbook.Failure
import Cookbook.Identifier
import Cookbook.Justfile.Body
import Cookbook.Justfile.Line
import Cookbook.Justfile.Literal
import Cookbook.Justfile.Reading
import Cookbook.Main
import Cookbook.Path
import Cookbook.Process
import Cookbook.Program
import Cookbook.Proofs.Book.Check
import Cookbook.Proofs.Book.Draft
import Cookbook.Proofs.Catalog.Bookkeeping
import Cookbook.Proofs.Catalog.Check
import Cookbook.Proofs.Catalog.Composition
import Cookbook.Proofs.Catalog.Correspondence
import Cookbook.Proofs.Catalog.Fault
import Cookbook.Proofs.Catalog.Finished
import Cookbook.Proofs.Catalog.Graph
import Cookbook.Proofs.Catalog.Insert
import Cookbook.Proofs.Catalog.Locality
import Cookbook.Proofs.Catalog.Lookup
import Cookbook.Proofs.Catalog.Offers
import Cookbook.Proofs.Catalog.Plan
import Cookbook.Proofs.Catalog.Reason
import Cookbook.Proofs.Catalog.Respelling
import Cookbook.Proofs.Catalog.Simulation
import Cookbook.Proofs.Catalog.Walk
import Cookbook.Proofs.Chain.Append
import Cookbook.Proofs.Chain.Cut
import Cookbook.Proofs.Chain.Ends
import Cookbook.Proofs.Chain.Position
import Cookbook.Proofs.Chain.Steps
import Cookbook.Proofs.Chain.Whole
import Cookbook.Proofs.Chain.Words
import Cookbook.Proofs.Except
import Cookbook.Proofs.Execution.Attempt
import Cookbook.Proofs.Execution.Directory
import Cookbook.Proofs.Execution.DryRun
import Cookbook.Proofs.Execution.Ending
import Cookbook.Proofs.Execution.FailFast
import Cookbook.Proofs.Execution.Phase
import Cookbook.Proofs.Execution.Rehearsal
import Cookbook.Proofs.Execution.Reuse
import Cookbook.Proofs.Execution.Run
import Cookbook.Proofs.Execution.Spelling
import Cookbook.Proofs.Execution.Trace
import Cookbook.Proofs.Filling
import Cookbook.Proofs.Identifier
import Cookbook.Proofs.Justfile.Alike
import Cookbook.Proofs.Justfile.Append
import Cookbook.Proofs.Justfile.Body
import Cookbook.Proofs.Justfile.Continuation
import Cookbook.Proofs.Justfile.Definition
import Cookbook.Proofs.Justfile.Draft
import Cookbook.Proofs.Justfile.Erased
import Cookbook.Proofs.Justfile.Format
import Cookbook.Proofs.Justfile.Item
import Cookbook.Proofs.Justfile.Kind
import Cookbook.Proofs.Justfile.Known
import Cookbook.Proofs.Justfile.Literal
import Cookbook.Proofs.Justfile.Merge
import Cookbook.Proofs.Justfile.Naming
import Cookbook.Proofs.Justfile.Outcome
import Cookbook.Proofs.Justfile.Placed
import Cookbook.Proofs.Justfile.Reading
import Cookbook.Proofs.Justfile.Steps
import Cookbook.Proofs.Justfile.Value
import Cookbook.Proofs.Origin
import Cookbook.Proofs.Path.Join
import Cookbook.Proofs.Replay
import Cookbook.Proofs.Session.FirstFailure
import Cookbook.Proofs.Session.Lines
import Cookbook.Proofs.Session.Loading
import Cookbook.Proofs.Session.Preview
import Cookbook.Proofs.Session.Report
import Cookbook.Proofs.Session.Status
import Cookbook.Proofs.Stored
import Cookbook.Proofs.Substitution
import Cookbook.Proofs.Template.Enclosed
import Cookbook.Proofs.Template.Escape
import Cookbook.Proofs.Template.Expansion
import Cookbook.Proofs.Template.Literal
import Cookbook.Proofs.Template.Placeholder
import Cookbook.Proofs.Template.Spelling
import Cookbook.Proofs.Text.Line
import Cookbook.Proofs.Text.Phrase
import Cookbook.Proofs.Text.Trim
import Cookbook.Proofs.Text.Utf8
import Cookbook.Proofs.Word.Gap
import Cookbook.Proofs.Word.Join
import Cookbook.Proofs.Word.Plain
import Cookbook.Recipe
import Cookbook.Session
import Cookbook.Shelf
import Cookbook.Substitution
import Cookbook.Table
import Cookbook.Template
import Cookbook.Terminal
import Cookbook.Text.Blank
import Cookbook.Text.Given
import Cookbook.Text.Line
import Cookbook.Text.Printable
import Cookbook.Text.Quoted
import Cookbook.Text.Uppercase
import Cookbook.Text.Utf8
import Cookbook.Tree
import Cookbook.Word.Join
import Cookbook.Word.Quoting
import Cookbook.Word.Split

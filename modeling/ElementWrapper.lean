import ElementWrapper.Main
import ElementWrapper.Session
import ElementWrapper.Source.Check
import ElementWrapper.Proofs.Module.Meaning
import ElementWrapper.Proofs.Module.Names
import ElementWrapper.Proofs.Harvest.Content
import ElementWrapper.Proofs.Wrapper.Reexports
import ElementWrapper.Proofs.Wrapper.Exports
import ElementWrapper.Proofs.Wrapper.Scope
import ElementWrapper.Proofs.Harvest.Complaints
import ElementWrapper.Proofs.Harvest.Hoisting
import ElementWrapper.Proofs.Wrapper.Refusals
import ElementWrapper.Proofs.Build.Isolation
import ElementWrapper.Proofs.Files.Directories
import ElementWrapper.Proofs.Build.Traces
import ElementWrapper.Proofs.Files.Targets
import ElementWrapper.Proofs.Build.Wrappers
import ElementWrapper.Proofs.Files.Resolution
import ElementWrapper.Proofs.Build.Discovery
import ElementWrapper.Proofs.Build.DryRun
import ElementWrapper.Proofs.Build.Inputs
import ElementWrapper.Proofs.Build.Loading
import ElementWrapper.Proofs.Literal.Quotation
import ElementWrapper.Proofs.Printer.Unambiguous
import ElementWrapper.Proofs.Harvest.Places
import ElementWrapper.Proofs.Wrapper.Keys
import ElementWrapper.Proofs.Path.Containment
import ElementWrapper.Proofs.Harvest.Names
import ElementWrapper.Proofs.Literal.Escapes
import ElementWrapper.Proofs.Wrapper.Clauses
import ElementWrapper.Proofs.Script.Arguments
import ElementWrapper.Proofs.Script.Calls
import ElementWrapper.Proofs.Script.Concatenations
import ElementWrapper.Proofs.Source.Tokens
import ElementWrapper.Proofs.Text.Utf8
import ElementWrapper.Proofs.Path.Ways
import ElementWrapper.Proofs.Diagnostic.Frames
import ElementWrapper.Proofs.Wrapper.Members
import ElementWrapper.Proofs.Module.NormalForm
import ElementWrapper.Proofs.Build.Reports
import ElementWrapper.Proofs.Wrapper.Imports
import ElementWrapper.Proofs.Source.Outlines
import ElementWrapper.Proofs.Source.Signs
import ElementWrapper.Proofs.Source.Weaving
import ElementWrapper.Proofs.Build.Sources
import ElementWrapper.Proofs.Source.Errors
import ElementWrapper.Proofs.Source.Bodies
import ElementWrapper.Proofs.Script.Comments
import ElementWrapper.Proofs.Source.Positions
import ElementWrapper.Proofs.Source.Templates
import ElementWrapper.Proofs.Module.Chains
import ElementWrapper.Proofs.Module.Renaming
import ElementWrapper.Proofs.Module.Imports

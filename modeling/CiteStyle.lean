import CiteStyle.Editor
import CiteStyle.Main
import CiteStyle.Proofs.Children
import CiteStyle.Proofs.Tree
import CiteStyle.Proofs.Text.Utf8
import CiteStyle.Proofs.Document
import CiteStyle.Proofs.Xml.Rest
import CiteStyle.Proofs.Xml.Lines
import CiteStyle.Proofs.Rendering.Calls
import CiteStyle.Proofs.Rendering.Grammar
import CiteStyle.Proofs.Rendering.Acceptance
import CiteStyle.Proofs.Rules
import CiteStyle.Proofs.Rendering.Refusal
import CiteStyle.Proofs.Rendering.Names
import CiteStyle.Proofs.Rendering.Position
import CiteStyle.Proofs.Rendering.Expansion
import CiteStyle.Proofs.Rendering.Shorthand
import CiteStyle.Proofs.Rendering.Suppression
import CiteStyle.Proofs.Rendering.Steps
import CiteStyle.Proofs.Fragment
import CiteStyle.Proofs.Options.Completion
import CiteStyle.Proofs.Locale.Merge
import CiteStyle.Proofs.Locale.Run
import CiteStyle.Proofs.Style.Assembly
import CiteStyle.Proofs.Style.LocalePrecedence
import CiteStyle.Proofs.Style.Completion
import CiteStyle.Proofs.Style.Wholeness
import CiteStyle.Proofs.Style.Refusal
import CiteStyle.Proofs.Style.Excerpt
import CiteStyle.Proofs.CommandLine.Agreement
import CiteStyle.Proofs.CommandLine.Attribution
import CiteStyle.Proofs.CommandLine.Verdict
import CiteStyle.Proofs.Declaration
import CiteStyle.Proofs.Xml.Readback
import CiteStyle.Proofs.Dump
import CiteStyle.Proofs.YearSuffix
import CiteStyle.Proofs.Comment
import CiteStyle.Proofs.Locale.Layers
import CiteStyle.Proofs.Language.Suiting
import CiteStyle.Proofs.LocaleFile
import CiteStyle.Proofs.Report
import CiteStyle.Proofs.Editor
import CiteStyle.Proofs.CommandLine.Outcome
import CiteStyle.Proofs.Options.Formatting

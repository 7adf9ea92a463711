import SearchConfig.CommandLine.Arguments
import SearchConfig.CommandLine.Command
import SearchConfig.CommandLine.Printout
import SearchConfig.CommandLine.Run
import SearchConfig.Decimal.Binary64
import SearchConfig.Decimal.Digits
import SearchConfig.Decimal.Shortest
import SearchConfig.Document
import SearchConfig.Entries
import SearchConfig.Failure
import SearchConfig.Files.Canonical
import SearchConfig.Files.Path
import SearchConfig.Files.Tree
import SearchConfig.Files.Walk
import SearchConfig.Json.Basic
import SearchConfig.Json.Printer
import SearchConfig.Json.Reader
import SearchConfig.Json.Token
import SearchConfig.Link.Linker
import SearchConfig.Link.Remote
import SearchConfig.Link.Template
import SearchConfig.Link.Unchecked
import SearchConfig.Load
import SearchConfig.Log.Console
import SearchConfig.Log.Record
import SearchConfig.Log.Renderer
import SearchConfig.Log.Setup
import SearchConfig.Log.Threshold
import SearchConfig.LoggedLoad
import SearchConfig.Main
import SearchConfig.Model.Config
import SearchConfig.Model.Defaults
import SearchConfig.Model.Listing
import SearchConfig.Model.Pattern
import SearchConfig.Model.Repository
import SearchConfig.Proofs.Accounting
import SearchConfig.Proofs.CanonicalForms
import SearchConfig.Proofs.CanonicalPaths
import SearchConfig.Proofs.CanonicalPlaces
import SearchConfig.Proofs.CapturedValues
import SearchConfig.Proofs.ComposedPaths
import SearchConfig.Proofs.ConfigDirectory
import SearchConfig.Proofs.ControlSequences
import SearchConfig.Proofs.Decimals
import SearchConfig.Proofs.Decoding
import SearchConfig.Proofs.Demands
import SearchConfig.Proofs.DistinctKeys
import SearchConfig.Proofs.EmptiedFiles
import SearchConfig.Proofs.EnvFileValues
import SearchConfig.Proofs.FailingLoads
import SearchConfig.Proofs.FieldLookup
import SearchConfig.Proofs.Filled
import SearchConfig.Proofs.FilledGaps
import SearchConfig.Proofs.FilledObjects
import SearchConfig.Proofs.FreshSettings
import SearchConfig.Proofs.GivenSettings
import SearchConfig.Proofs.JsonValues
import SearchConfig.Proofs.KeptSettings
import SearchConfig.Proofs.KnownLinks
import SearchConfig.Proofs.LineLinks
import SearchConfig.Proofs.LinkCycles
import SearchConfig.Proofs.Links
import SearchConfig.Proofs.LoadErrors
import SearchConfig.Proofs.LoadLog
import SearchConfig.Proofs.Loading
import SearchConfig.Proofs.LogLines
import SearchConfig.Proofs.Masking
import SearchConfig.Proofs.NameOrder
import SearchConfig.Proofs.Noninterference
import SearchConfig.Proofs.Numerals
import SearchConfig.Proofs.OrderedEntries
import SearchConfig.Proofs.Padding
import SearchConfig.Proofs.PathFaults
import SearchConfig.Proofs.PathTexts
import SearchConfig.Proofs.Placeholders
import SearchConfig.Proofs.PlainObjects
import SearchConfig.Proofs.PlainText
import SearchConfig.Proofs.PrintableJson
import SearchConfig.Proofs.Printed
import SearchConfig.Proofs.Printouts
import SearchConfig.Proofs.Ratios
import SearchConfig.Proofs.ReadBack
import SearchConfig.Proofs.ReadIntegers
import SearchConfig.Proofs.Reading
import SearchConfig.Proofs.Redacted
import SearchConfig.Proofs.Reload
import SearchConfig.Proofs.RemoteSpellings
import SearchConfig.Proofs.ReorderedFiles
import SearchConfig.Proofs.ReplacedFiles
import SearchConfig.Proofs.Respelling
import SearchConfig.Proofs.RoundTrip
import SearchConfig.Proofs.Rounding
import SearchConfig.Proofs.SameMeaning
import SearchConfig.Proofs.SortedListing
import SearchConfig.Proofs.SpelledWalks
import SearchConfig.Proofs.UnicodeTexts
import SearchConfig.Proofs.UnnestedTemplates
import SearchConfig.Proofs.Writable
import SearchConfig.RunSort
import SearchConfig.Schema.Field
import SearchConfig.Schema.Problem
import SearchConfig.Schema.Source
import SearchConfig.Secret
import SearchConfig.Settings.Arguments
import SearchConfig.Settings.Basic
import SearchConfig.Settings.Cache
import SearchConfig.Settings.EnvFile
import SearchConfig.Settings.EnvFiles
import SearchConfig.Settings.Read
import SearchConfig.Settings.SecretFiles
import SearchConfig.Settings.Variables
import SearchConfig.Settings.Words
import SearchConfig.Text.Basic
import SearchConfig.Text.Case
import SearchConfig.Text.Category
import SearchConfig.Text.CodePages
import SearchConfig.Text.Encoding
import SearchConfig.Text.Integer
import SearchConfig.Text.Quoted
import SearchConfig.Text.Search
import SearchConfig.Text.Terminal
import SearchConfig.Text.Utf8
import SearchConfig.Value.Basic
import SearchConfig.Value.Display
import SearchConfig.Value.Equality
import SearchConfig.Value.Handle
import SearchConfig.Value.Hash
import SearchConfig.Value.HashCode
import SearchConfig.Value.Inherited
import SearchConfig.Value.Internals
import SearchConfig.Value.Items
import SearchConfig.Value.KeyTable
import SearchConfig.Value.Member
import SearchConfig.Value.Methods
import SearchConfig.Value.Misuse
import SearchConfig.Value.Named
import SearchConfig.Value.Order
import SearchConfig.Value.Payload
import SearchConfig.Value.Serialize
import SearchConfig.Value.SetOrder
import SearchConfig.Value.Truth
import SearchConfig.Workspace.Action
import SearchConfig.Workspace.Assignment
import SearchConfig.Workspace.Basic
import SearchConfig.Workspace.Change
import SearchConfig.Workspace.Comparison
import SearchConfig.Workspace.Creation
import SearchConfig.Workspace.Form
import SearchConfig.Workspace.Member
import SearchConfig.Workspace.Part
import SearchConfig.Workspace.Report
import SearchConfig.Workspace.Shown
import SearchConfig.Workspace.Telling
import SearchConfig.Workspace.Written

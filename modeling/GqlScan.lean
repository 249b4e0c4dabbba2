import GqlScan.Text.Basic
import GqlScan.Text.Blank
import GqlScan.Text.Digit
import GqlScan.Text.Lines
import GqlScan.Text.Word
import GqlScan.Text.Upper
import GqlScan.Text.Quoted
import GqlScan.Text.Utf8
import GqlScan.Text.Points
import GqlScan.Comment
import GqlScan.Header
import GqlScan.Scope
import GqlScan.Field
import GqlScan.NestedTypes
import GqlScan.Operation
import GqlScan.Selection.Block
import GqlScan.Selection.LogicalLine
import GqlScan.Selection.LineShape
import GqlScan.Selection.Item
import GqlScan.Selection.Fields
import GqlScan.Selection.Scan
import GqlScan.Log
import GqlScan.Notice
import GqlScan.Document
import GqlScan.Schema
import GqlScan.Parser
import GqlScan.Outline
import GqlScan.Path
import GqlScan.Disk
import GqlScan.Place
import GqlScan.Yaml
import GqlScan.Uri.Authority
import GqlScan.Uri
import GqlScan.Connector
import GqlScan.Generator
import GqlScan.Word
import GqlScan.Editor
import GqlScan.Json
import GqlScan.Export
import GqlScan.CommandLine
import GqlScan.Cli
import GqlScan.Main
import GqlScan.Proofs.Lines
import GqlScan.Proofs.LiveText
import GqlScan.Proofs.Readers
import GqlScan.Proofs.CleanText
import GqlScan.Proofs.Blocks
import GqlScan.Proofs.SelectionLines
import GqlScan.Proofs.Registration
import GqlScan.Proofs.Homonyms
import GqlScan.Proofs.Canonical.Source
import GqlScan.Proofs.Canonical.LineReading
import GqlScan.Proofs.Canonical.HeadLine
import GqlScan.Proofs.Canonical.Reading
import GqlScan.Proofs.TrailingComments.Cutting
import GqlScan.Proofs.TrailingComments.Stripped
import GqlScan.Proofs.TrailingComments.Plain
import GqlScan.Proofs.TrailingComments.Settings
import GqlScan.Proofs.TrailingComments.Misread
import GqlScan.Proofs.TrailingComments.Influence
import GqlScan.Proofs.Outlines.Unfolding
import GqlScan.Proofs.Retouching
import GqlScan.Proofs.Spelling
import GqlScan.Proofs.LineDepth
import GqlScan.Proofs.Outlines.OwnTree
import GqlScan.Proofs.Isolation
import GqlScan.Proofs.TypeReading
import GqlScan.Proofs.TrailingComments.Types
import GqlScan.Proofs.TypeBlocks.Source
import GqlScan.Proofs.TypeBlocks.Cursor
import GqlScan.Proofs.TypeBlocks.Reading
import GqlScan.Proofs.AbsolutePaths
import GqlScan.Proofs.Files
import GqlScan.Proofs.Places
import GqlScan.Proofs.Commands
import GqlScan.Proofs.ConnectorShapes
import GqlScan.Proofs.Connectors
import GqlScan.Proofs.TypeStream
import GqlScan.Proofs.Outlines.Types
import GqlScan.Proofs.OperationShape
import GqlScan.Proofs.Literals.Exchange
import GqlScan.Proofs.Literals.Reading
import GqlScan.Proofs.Literals.Arguments
import GqlScan.Proofs.Literals.Misread
import GqlScan.Proofs.Literals.Influence
import GqlScan.Proofs.Concatenation
import GqlScan.Proofs.Enclosed
import GqlScan.Proofs.Nesting
import GqlScan.Proofs.Directives
import GqlScan.Proofs.TypeSegments
import GqlScan.Proofs.Bytes
import GqlScan.Proofs.CommandLines
import GqlScan.Proofs.Launches
import GqlScan.Proofs.Sessions
import GqlScan.Proofs.JsonReading
import GqlScan.Proofs.TextFiles
import GqlScan.Proofs.CommentParity
import GqlScan.Proofs.ScopePartition
import GqlScan.Proofs.HeaderSearch
import GqlScan.Proofs.ConnectorDocuments
import GqlScan.Proofs.VariableSearch
import GqlScan.Proofs.PathUris
import GqlScan.Proofs.Saves
import GqlScan.Proofs.ScanMachine
import GqlScan.Proofs.BlockEnds
import GqlScan.Proofs.QuotedSigns
import GqlScan.Proofs.LineGroups
import GqlScan.Proofs.Patterns
import GqlScan.Proofs.LineGrammar
import GqlScan.Proofs.LinePatterns
import GqlScan.Proofs.ScopeDepth
import GqlScan.Proofs.WordBounds
import GqlScan.Proofs.RegistrationOrder

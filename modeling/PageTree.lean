import PageTree.Command.Arguments
import PageTree.Command.Outcome
import PageTree.Command.Program
import PageTree.Command.Transform
import PageTree.Command.Usage
import PageTree.Decimal.Reading
import PageTree.Decimal.Shortest
import PageTree.Files.FileSystem
import PageTree.Json.Basic
import PageTree.Json.Numeral
import PageTree.Json.Reader
import PageTree.Json.Writer
import PageTree.Main
import PageTree.Markdown.Autolink
import PageTree.Markdown.Block
import PageTree.Markdown.BlockReader
import PageTree.Markdown.BlockStart
import PageTree.Markdown.CharacterName
import PageTree.Markdown.CharacterReference
import PageTree.Markdown.Cursor
import PageTree.Markdown.Definition
import PageTree.Markdown.Emphasis
import PageTree.Markdown.Event
import PageTree.Markdown.Heading
import PageTree.Markdown.Html
import PageTree.Markdown.Inline
import PageTree.Markdown.InlineReader
import PageTree.Markdown.Interrupt
import PageTree.Markdown.Label
import PageTree.Markdown.Line
import PageTree.Markdown.LineIndex
import PageTree.Markdown.Reading
import PageTree.Markdown.Source
import PageTree.Markdown.TreeBuilder
import PageTree.Pass.Context
import PageTree.Pass.Description
import PageTree.Pass.Entity
import PageTree.Pass.Heading
import PageTree.Pass.Link
import PageTree.Pass.Transformer
import PageTree.Path
import PageTree.Proofs.Command.Batch
import PageTree.Proofs.Command.Converting
import PageTree.Proofs.Command.Failing
import PageTree.Proofs.Command.Outputs
import PageTree.Proofs.Command.Serial
import PageTree.Proofs.Command.Spelling
import PageTree.Proofs.Command.Toggles
import PageTree.Proofs.Command.Workers
import PageTree.Proofs.Files.Components
import PageTree.Proofs.Files.Following
import PageTree.Proofs.Files.Naming
import PageTree.Proofs.Files.Shown
import PageTree.Proofs.Files.Straight
import PageTree.Proofs.Json.Denotation
import PageTree.Proofs.Json.Fields
import PageTree.Proofs.Json.Merged
import PageTree.Proofs.Json.Nesting
import PageTree.Proofs.Json.Numeral
import PageTree.Proofs.Json.ReadBack
import PageTree.Proofs.Json.ReadNesting
import PageTree.Proofs.Json.Reading
import PageTree.Proofs.Json.Text
import PageTree.Proofs.Json.Value
import PageTree.Proofs.Markdown.Adding
import PageTree.Proofs.Markdown.Bare
import PageTree.Proofs.Markdown.Descriptions
import PageTree.Proofs.Markdown.EventTree
import PageTree.Proofs.Markdown.Layout
import PageTree.Proofs.Markdown.Lines
import PageTree.Proofs.Markdown.Numbers
import PageTree.Proofs.Markdown.Placement
import PageTree.Proofs.Markdown.Placing
import PageTree.Proofs.Markdown.Points
import PageTree.Proofs.Markdown.Positions
import PageTree.Proofs.Markdown.Quotes
import PageTree.Proofs.Markdown.Simulation
import PageTree.Proofs.Markdown.StoredTree
import PageTree.Proofs.Markdown.Texts
import PageTree.Proofs.Markdown.Translation
import PageTree.Proofs.Pass.EntityEncoding
import PageTree.Proofs.Pass.Headings
import PageTree.Proofs.Pass.Levels
import PageTree.Proofs.Pass.Links
import PageTree.Proofs.Pass.Local
import PageTree.Proofs.Pass.Order
import PageTree.Proofs.Pass.Paragraphs
import PageTree.Proofs.Pass.Reloading
import PageTree.Proofs.Pass.Settled
import PageTree.Proofs.Site.Folders
import PageTree.Proofs.Site.Pages
import PageTree.Proofs.Site.Problems
import PageTree.Proofs.Site.Records
import PageTree.Proofs.Site.References
import PageTree.Proofs.Site.Reports
import PageTree.Proofs.Site.Routes
import PageTree.Proofs.Terminal.History
import PageTree.Proofs.Terminal.Screen
import PageTree.Proofs.Toml.Distinct
import PageTree.Proofs.Tree.Canonical
import PageTree.Proofs.Tree.Decoded
import PageTree.Proofs.Tree.Decoding
import PageTree.Proofs.Tree.Depth
import PageTree.Proofs.Tree.Everywhere
import PageTree.Proofs.Tree.Induction
import PageTree.Proofs.Tree.Normal
import PageTree.Proofs.Tree.Noted
import PageTree.Proofs.Tree.RoundTrip
import PageTree.Proofs.Tree.Storable
import PageTree.Proofs.Tree.Visits
import PageTree.Proofs.Tree.Walk
import PageTree.Proofs.Typography.Segments
import PageTree.Proofs.Typography.Tokens
import PageTree.Site.Config
import PageTree.Site.ConfigFile
import PageTree.Site.Link
import PageTree.Site.PageId
import PageTree.Site.Source
import PageTree.Site.Url
import PageTree.Terminal.Log
import PageTree.Text.Ascii
import PageTree.Text.Case
import PageTree.Text.Hidden
import PageTree.Text.Punctuation
import PageTree.Toml.Basic
import PageTree.Toml.Document
import PageTree.Toml.Moment
import PageTree.Toml.Reader
import PageTree.Toml.Scan
import PageTree.Tree.Encoding
import PageTree.Tree.Kind
import PageTree.Tree.Node
import PageTree.Tree.Traversal
import PageTree.Typography.Entity
import PageTree.Yaml.Cursor
import PageTree.Yaml.Node
import PageTree.Yaml.NodeReader
import PageTree.Yaml.Reader
import PageTree.Yaml.Resolution
import PageTree.Yaml.Scalar
import PageTree.Yaml.Tag
import PageTree.Yaml.Token
import PageTree.Yaml.TokenStream

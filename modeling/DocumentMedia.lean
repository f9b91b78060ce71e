import DocumentMedia.Asset.Batch
import DocumentMedia.Asset.Copies
import DocumentMedia.Asset.Error
import DocumentMedia.Asset.Publisher
import DocumentMedia.Asset.Reference
import DocumentMedia.Asset.Surface
import DocumentMedia.Assoc
import DocumentMedia.Attribute.Block
import DocumentMedia.Attribute.Loose
import DocumentMedia.Attribute.Style
import DocumentMedia.Attribute.Token
import DocumentMedia.Bytes
import DocumentMedia.Calendar
import DocumentMedia.Component.Syntax
import DocumentMedia.Decimal.Shortest
import DocumentMedia.Digest.Sha1
import DocumentMedia.Directive.Syntax
import DocumentMedia.Document.Body
import DocumentMedia.Document.Expand
import DocumentMedia.Document.ExpandFault
import DocumentMedia.Document.Header
import DocumentMedia.Document.ImageNotation
import DocumentMedia.Document.Page
import DocumentMedia.Document.TokenTree
import DocumentMedia.Files.Change
import DocumentMedia.Files.Error
import DocumentMedia.Files.Listing
import DocumentMedia.Files.Path
import DocumentMedia.Files.Reading
import DocumentMedia.Files.Tree
import DocumentMedia.Json.Basic
import DocumentMedia.Json.Read
import DocumentMedia.Json.Write
import DocumentMedia.Ledger.Basic
import DocumentMedia.Ledger.DatabaseAddress
import DocumentMedia.Ledger.Document
import DocumentMedia.Ledger.Store
import DocumentMedia.Ledger.Table
import DocumentMedia.Ledger.TableFile
import DocumentMedia.Main
import DocumentMedia.Markdown.Address
import DocumentMedia.Markdown.Block
import DocumentMedia.Markdown.BlockStart
import DocumentMedia.Markdown.Definition
import DocumentMedia.Markdown.Dialect
import DocumentMedia.Markdown.Emphasis
import DocumentMedia.Markdown.Entity
import DocumentMedia.Markdown.EntityTable
import DocumentMedia.Markdown.Inline
import DocumentMedia.Markdown.Line
import DocumentMedia.Markdown.LinkPart
import DocumentMedia.Markdown.Parse
import DocumentMedia.Markdown.Tag
import DocumentMedia.Markdown.Token
import DocumentMedia.Media.Alt
import DocumentMedia.Media.Kind
import DocumentMedia.Media.Meta
import DocumentMedia.Media.Video
import DocumentMedia.Picture.Avif
import DocumentMedia.Picture.Avif.Item
import DocumentMedia.Picture.Avif.Property
import DocumentMedia.Picture.Avif.Reader
import DocumentMedia.Picture.Bitmap
import DocumentMedia.Picture.Deflate
import DocumentMedia.Picture.Error
import DocumentMedia.Picture.Gif
import DocumentMedia.Picture.Jpeg
import DocumentMedia.Picture.Png
import DocumentMedia.Picture.Size
import DocumentMedia.Picture.Tiff
import DocumentMedia.Picture.Webp
import DocumentMedia.Site.Arguments
import DocumentMedia.Site.Build
import DocumentMedia.Site.Config
import DocumentMedia.Site.Export
import DocumentMedia.Site.Failure
import DocumentMedia.Site.Run
import DocumentMedia.Site.Settings
import DocumentMedia.Site.Sidecar
import DocumentMedia.Text.Alnum
import DocumentMedia.Text.AsciiFold
import DocumentMedia.Text.AsciiFoldTable
import DocumentMedia.Text.Blank
import DocumentMedia.Text.Digit
import DocumentMedia.Text.Escape
import DocumentMedia.Text.LetterCase
import DocumentMedia.Text.LetterCaseTable
import DocumentMedia.Text.Percent
import DocumentMedia.Text.Printable
import DocumentMedia.Text.Punctuation
import DocumentMedia.Text.Punycode
import DocumentMedia.Text.Quoted
import DocumentMedia.Text.Ranges
import DocumentMedia.Text.Slug
import DocumentMedia.Text.Utf8
import DocumentMedia.Tree.Node
import DocumentMedia.Tree.Render
import DocumentMedia.Tree.Visit
import DocumentMedia.Value.Basic
import DocumentMedia.Value.Entries
import DocumentMedia.Value.Text
import DocumentMedia.Yaml.Cursor
import DocumentMedia.Yaml.Error
import DocumentMedia.Yaml.Load
import DocumentMedia.Yaml.Node
import DocumentMedia.Yaml.Scalar
import DocumentMedia.Yaml.ScalarText
import DocumentMedia.Yaml.Tag
import DocumentMedia.Yaml.Token
import DocumentMedia.Proofs.Asset.Step
import DocumentMedia.Proofs.Asset.Scan
import DocumentMedia.Proofs.Asset.Find
import DocumentMedia.Proofs.Asset.Copying
import DocumentMedia.Proofs.Asset.Reliance
import DocumentMedia.Proofs.Json.RoundTrip
import DocumentMedia.Proofs.Files.Write
import DocumentMedia.Proofs.Ledger.Store
import DocumentMedia.Proofs.Ledger.Saves
import DocumentMedia.Proofs.Asset.Saving
import DocumentMedia.Proofs.Asset.Again
import DocumentMedia.Proofs.Files.Agree
import DocumentMedia.Proofs.Site.Independence
import DocumentMedia.Proofs.Asset.Progress
import DocumentMedia.Proofs.Site.Schedule
import DocumentMedia.Proofs.Text.Blank
import DocumentMedia.Proofs.Value.Entries
import DocumentMedia.Proofs.Document.Expansion
import DocumentMedia.Proofs.Asset.Entries
import DocumentMedia.Proofs.Attribute.Token
import DocumentMedia.Proofs.Attribute.Block
import DocumentMedia.Proofs.Document.ImageNotation
import DocumentMedia.Proofs.Document.Dress
import DocumentMedia.Proofs.Document.Routes
import DocumentMedia.Proofs.Asset.Identifier
import DocumentMedia.Proofs.Asset.Single
import DocumentMedia.Proofs.Site.Routes
import DocumentMedia.Proofs.Document.Siblings
import DocumentMedia.Proofs.Document.Parsed
import DocumentMedia.Proofs.Document.Carried
import DocumentMedia.Proofs.Text.Escape
import DocumentMedia.Proofs.Tree.Markup
import DocumentMedia.Proofs.Tree.Outline
import DocumentMedia.Proofs.Component.RoundTrip
import DocumentMedia.Proofs.Files.Growth
import DocumentMedia.Proofs.Site.Growth
import DocumentMedia.Proofs.Site.Outputs
import DocumentMedia.Proofs.Site.Placement
import DocumentMedia.Proofs.Text.Percent
import DocumentMedia.Proofs.Text.LetterCase
import DocumentMedia.Proofs.Asset.Reference
import DocumentMedia.Proofs.Asset.Lookup
import DocumentMedia.Proofs.Asset.Extension
import DocumentMedia.Proofs.Asset.PublicPath
import DocumentMedia.Proofs.Asset.Title
import DocumentMedia.Proofs.Site.Failures
import DocumentMedia.Proofs.Site.Isolation
import DocumentMedia.Proofs.Site.Turns
import DocumentMedia.Proofs.Site.Atomicity
import DocumentMedia.Proofs.Asset.ContentRoot
import DocumentMedia.Proofs.Asset.AsWritten
import DocumentMedia.Proofs.Attribute.Loose
import DocumentMedia.Proofs.Document.AltText
import DocumentMedia.Proofs.Attribute.Apart
import DocumentMedia.Proofs.Attribute.Freeform
import DocumentMedia.Proofs.Component.Written
import DocumentMedia.Proofs.Component.Lines
import DocumentMedia.Proofs.Document.Header
import DocumentMedia.Proofs.Markdown.Inline
import DocumentMedia.Proofs.Markdown.Paragraph
import DocumentMedia.Proofs.Document.Row
import DocumentMedia.Proofs.Site.Images
import DocumentMedia.Proofs.Document.Directive
import DocumentMedia.Proofs.Document.StandIn
import DocumentMedia.Proofs.Attribute.RoundTrip
import DocumentMedia.Proofs.Tree.Visit
import DocumentMedia.Proofs.Document.Visiting
import DocumentMedia.Proofs.Document.Nesting
import DocumentMedia.Proofs.Asset.Frame
import DocumentMedia.Proofs.Site.Presence
import DocumentMedia.Proofs.Document.VideoTag
import DocumentMedia.Proofs.Attribute.Style
import DocumentMedia.Proofs.Attribute.Merge
import DocumentMedia.Proofs.Attribute.Cut
import DocumentMedia.Proofs.Tree.Order
import DocumentMedia.Proofs.Text.Slug
import DocumentMedia.Proofs.Document.Slots

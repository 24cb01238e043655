import Cartridge.Bytes
import Cartridge.Catalog
import Cartridge.Command.Basic
import Cartridge.Command.Opcode
import Cartridge.Command.Read
import Cartridge.Command.Render
import Cartridge.CommandLine
import Cartridge.Config.Document
import Cartridge.Config.Lexical
import Cartridge.Config.Packaged
import Cartridge.Config.Printer
import Cartridge.Config.Reader
import Cartridge.Config.Tree
import Cartridge.Config.Value
import Cartridge.Decimal
import Cartridge.DisplayList
import Cartridge.Error
import Cartridge.Fixed
import Cartridge.Header
import Cartridge.Image.Access
import Cartridge.Image.Basic
import Cartridge.Image.FileRecord
import Cartridge.Image.Messages
import Cartridge.Main
import Cartridge.Message.Basic
import Cartridge.Message.Encoding
import Cartridge.Message.Fragment
import Cartridge.Message.Lexeme
import Cartridge.Message.Table
import Cartridge.Release
import Cartridge.Text.DoubleByte
import Cartridge.Text.Labelled
import Cartridge.Text.Numeral
import Cartridge.Word
import Cartridge.Yaz0
import Cartridge.Proofs.Bytes.Numbers
import Cartridge.Proofs.Bytes.Search
import Cartridge.Proofs.Catalog
import Cartridge.Proofs.Command.Exactness
import Cartridge.Proofs.Command.Layout
import Cartridge.Proofs.Command.Lookup
import Cartridge.Proofs.Command.Machine
import Cartridge.Proofs.Command.Parts
import Cartridge.Proofs.Command.Reading
import Cartridge.Proofs.Command.RoundTrip
import Cartridge.Proofs.Command.Stepwise
import Cartridge.Proofs.Config.Lookup
import Cartridge.Proofs.Config.Numbers
import Cartridge.Proofs.Config.Order
import Cartridge.Proofs.Config.Reading
import Cartridge.Proofs.DisplayList.Scan
import Cartridge.Proofs.DisplayList.Segments
import Cartridge.Proofs.Fixed.Conversion
import Cartridge.Proofs.Fixed.Register
import Cartridge.Proofs.Fixed.Scaling
import Cartridge.Proofs.Fixed.Wide
import Cartridge.Proofs.Image.ByteOrder
import Cartridge.Proofs.Image.Coherence
import Cartridge.Proofs.Image.Failures
import Cartridge.Proofs.Image.FileTable
import Cartridge.Proofs.Image.MessageBound
import Cartridge.Proofs.Image.NameBlindness
import Cartridge.Proofs.Image.NamedFiles
import Cartridge.Proofs.Image.Naming
import Cartridge.Proofs.Image.Records
import Cartridge.Proofs.Image.Session
import Cartridge.Proofs.Image.Transparency
import Cartridge.Proofs.Lists
import Cartridge.Proofs.Message.AddressLists
import Cartridge.Proofs.Message.Boxes
import Cartridge.Proofs.Message.ClosedTables
import Cartridge.Proofs.Message.CodePage
import Cartridge.Proofs.Message.EuropeanFont
import Cartridge.Proofs.Message.Faults
import Cartridge.Proofs.Message.FileTables
import Cartridge.Proofs.Message.Inheritance
import Cartridge.Proofs.Message.Locality
import Cartridge.Proofs.Message.NormalForm
import Cartridge.Proofs.Message.Pieces
import Cartridge.Proofs.Message.PlainText
import Cartridge.Proofs.Message.Reading
import Cartridge.Proofs.Message.RoundTrip
import Cartridge.Proofs.Message.TableLayout
import Cartridge.Proofs.Message.TableSources
import Cartridge.Proofs.Message.Units
import Cartridge.Proofs.Release
import Cartridge.Proofs.Result
import Cartridge.Proofs.Text.Numeral
import Cartridge.Proofs.Word.Fields
import Cartridge.Proofs.Yaz0.Cutting
import Cartridge.Proofs.Yaz0.Decoding
import Cartridge.Proofs.Yaz0.Expansion
import Cartridge.Proofs.Yaz0.Offsets
import Cartridge.Proofs.Yaz0.Soundness

import BsonWire.Bson.ElementType
import BsonWire.Bson.ObjectId
import BsonWire.Bson.Reader
import BsonWire.Bson.Value
import BsonWire.Bson.Writer
import BsonWire.Bytes.Hex
import BsonWire.Bytes.Read
import BsonWire.Bytes.ReadError
import BsonWire.Bytes.Word
import BsonWire.Capture.Frame
import BsonWire.Capture.Stream
import BsonWire.Compression.Adler32
import BsonWire.Compression.Codec
import BsonWire.Compression.Compressor
import BsonWire.Compression.Deflate.Inflate
import BsonWire.Compression.Deflate.PrefixCode
import BsonWire.Compression.Intake
import BsonWire.Compression.Snappy
import BsonWire.Compression.Standard
import BsonWire.Compression.Window
import BsonWire.Compression.XxHash64
import BsonWire.Compression.Zlib
import BsonWire.Compression.Zstd.BackwardBits
import BsonWire.Compression.Zstd.Block
import BsonWire.Compression.Zstd.Earlier.Block
import BsonWire.Compression.Zstd.Earlier.CodedSequence
import BsonWire.Compression.Zstd.Earlier.DirectSequence
import BsonWire.Compression.Zstd.Earlier.Edition
import BsonWire.Compression.Zstd.Earlier.Frame
import BsonWire.Compression.Zstd.Earlier.FrameHeader
import BsonWire.Compression.Zstd.Earlier.Huffman
import BsonWire.Compression.Zstd.Earlier.Literals
import BsonWire.Compression.Zstd.Earlier.Room
import BsonWire.Compression.Zstd.Frame
import BsonWire.Compression.Zstd.FrameHeader
import BsonWire.Compression.Zstd.Fse
import BsonWire.Compression.Zstd.Huffman
import BsonWire.Compression.Zstd.Sequence
import BsonWire.Compression.Zstd.Stream
import BsonWire.Compression.Zstd.Words
import BsonWire.Decimal.Layout
import BsonWire.Decimal.Shortest
import BsonWire.Diagnostic
import BsonWire.Limits
import BsonWire.Main
import BsonWire.Message.Body
import BsonWire.Message.Decode
import BsonWire.Message.Envelope
import BsonWire.Message.Flags
import BsonWire.Message.Header
import BsonWire.Message.Layout
import BsonWire.Message.Opcode
import BsonWire.Message.Section
import BsonWire.Message.Writer
import BsonWire.Proofs.Bson.Acceptance
import BsonWire.Proofs.Bson.Grammar
import BsonWire.Proofs.Bson.Measured
import BsonWire.Proofs.Bson.Notes
import BsonWire.Proofs.Bson.RoundTrip
import BsonWire.Proofs.Bson.Steps
import BsonWire.Proofs.Bson.Values
import BsonWire.Proofs.Bytes.Reads
import BsonWire.Proofs.Bytes.Segment
import BsonWire.Proofs.Bytes.Text
import BsonWire.Proofs.Message.Accounting
import BsonWire.Proofs.Message.Notes
import BsonWire.Proofs.Message.Steps
import BsonWire.Proofs.Series
import BsonWire.Reading
import BsonWire.Report.DocumentJson
import BsonWire.Report.HexDump
import BsonWire.Report.Inspect
import BsonWire.Report.Json
import BsonWire.Report.Outline
import BsonWire.Report.Scalar
import BsonWire.Report.Validate
import BsonWire.Text.Quoted
import BsonWire.Text.Unprintable
import BsonWire.Text.Utf8
import BsonWire.Proofs.Bson.Truncation
import BsonWire.Proofs.Message.Headers
import BsonWire.Proofs.Capture.Pieces
import BsonWire.Proofs.Message.Layouts
import BsonWire.Proofs.Message.Legacy
import BsonWire.Proofs.Bson.Moved
import BsonWire.Proofs.Message.Moved
import BsonWire.Proofs.Message.Carried
import BsonWire.Proofs.Message.Findings
import BsonWire.Proofs.Message.Envelopes
import BsonWire.Proofs.Message.Extensible
import BsonWire.Proofs.Bson.WiderLimits
import BsonWire.Proofs.Message.WiderLimits
import BsonWire.Proofs.Bson.Refusals
import BsonWire.Proofs.Bson.Origins
import BsonWire.Proofs.Bson.Overlap
import BsonWire.Proofs.Message.Gathered
import BsonWire.Proofs.Message.Refusals
import BsonWire.Proofs.Message.Sections
import BsonWire.Proofs.Report.Outline
import BsonWire.Proofs.Report.Agreement
import BsonWire.Proofs.Bson.Marks
import BsonWire.Proofs.Bson.Rows
import BsonWire.Proofs.Compression.Ceiling
import BsonWire.Proofs.Message.Marks
import BsonWire.Proofs.Message.Places
import BsonWire.Proofs.Message.Unwrapping
import BsonWire.Proofs.Message.Containment
import BsonWire.Proofs.Bson.Accounting
import BsonWire.Proofs.Message.Trailers
import BsonWire.Proofs.Message.Attempts
import BsonWire.Proofs.Bson.Capacity
import BsonWire.Proofs.Message.Capacity
import BsonWire.Proofs.Report.Selection
import BsonWire.Proofs.Report.DocumentJson
import BsonWire.Proofs.Report.OneLine
import BsonWire.Proofs.Report.LineCount
import BsonWire.Proofs.Bytes.Order
import BsonWire.Proofs.Bson.ObjectId
import BsonWire.Proofs.Bytes.Hex
import BsonWire.Proofs.Report.HexDump
import BsonWire.Proofs.Report.Introductions

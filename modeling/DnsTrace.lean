import DnsTrace.Directory
import DnsTrace.Main
import DnsTrace.Program
import DnsTrace.Relay
import DnsTrace.Proofs.Arguments.Words
import DnsTrace.Proofs.Cursor
import DnsTrace.Proofs.Cursor.Runs
import DnsTrace.Proofs.Edns.Defects
import DnsTrace.Proofs.Edns.Options
import DnsTrace.Proofs.InPlace.Trace
import DnsTrace.Proofs.Message.Appending
import DnsTrace.Proofs.Message.Defects
import DnsTrace.Proofs.Message.Encoding
import DnsTrace.Proofs.Message.Faults
import DnsTrace.Proofs.Message.Names
import DnsTrace.Proofs.Message.Positions
import DnsTrace.Proofs.Message.Truncation
import DnsTrace.Proofs.Name.Hops
import DnsTrace.Proofs.Name.Loops
import DnsTrace.Proofs.Name.Size
import DnsTrace.Proofs.Name.Transfer
import DnsTrace.Proofs.Output.Agreement
import DnsTrace.Proofs.Output.Lines
import DnsTrace.Proofs.Output.Relay
import DnsTrace.Proofs.RecordData.Addresses
import DnsTrace.Proofs.RecordData.Grammar
import DnsTrace.Proofs.RecordData.Isolation
import DnsTrace.Proofs.RecordData.Parsed
import DnsTrace.Proofs.RecordData.Shortage
import DnsTrace.Proofs.Text.Address
import DnsTrace.Proofs.Text.Digits
import DnsTrace.Proofs.Text.Fields
import DnsTrace.Proofs.Trace.Characters
import DnsTrace.Proofs.Trace.Folding
import DnsTrace.Proofs.Trace.Identity
import DnsTrace.Proofs.Trace.Records
import DnsTrace.Proofs.Trace.Sinks

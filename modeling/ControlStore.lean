import ControlStore.AddressBook
import ControlStore.ByteTable
import ControlStore.Compilation
import ControlStore.Event
import ControlStore.Fault
import ControlStore.FileStore
import ControlStore.Hex
import ControlStore.Listing
import ControlStore.Main
import ControlStore.Options
import ControlStore.Reader
import ControlStore.RomSet
import ControlStore.RomSet.Build
import ControlStore.Row
import ControlStore.Run
import ControlStore.Sink
import ControlStore.Source
import ControlStore.Step
import ControlStore.Text.Blank
import ControlStore.Text.Hidden
import ControlStore.Text.Quoted
import ControlStore.Text.Utf8
import ControlStore.Proofs.Building
import ControlStore.Proofs.Fields
import ControlStore.Proofs.FileStore
import ControlStore.Proofs.FirstFault
import ControlStore.Proofs.Grammar
import ControlStore.Proofs.Hex
import ControlStore.Proofs.Interning
import ControlStore.Proofs.LineOutcome
import ControlStore.Proofs.Listing
import ControlStore.Proofs.Pieces
import ControlStore.Proofs.ProgramText
import ControlStore.Proofs.ReadBack
import ControlStore.Proofs.Reading
import ControlStore.Proofs.RunEffect
import ControlStore.Proofs.Sequencer
import ControlStore.Proofs.Session
import ControlStore.Proofs.SourceLines
import ControlStore.Proofs.Tables
import ControlStore.Proofs.Trim
import ControlStore.Proofs.SessionTables
import ControlStore.Proofs.OpcodeOwners
import ControlStore.Proofs.Stopped
import ControlStore.Proofs.Appending
import ControlStore.Proofs.Relabelling
import ControlStore.Proofs.Renumbering
import ControlStore.Proofs.Respacing
import ControlStore.Proofs.Interrupted
import ControlStore.Proofs.FullSink
import ControlStore.Proofs.TabRuns
import ControlStore.Proofs.FieldByte

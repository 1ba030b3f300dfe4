import BootMemory.Action
import BootMemory.Address
import BootMemory.Alignment
import BootMemory.Bitmap.Basic
import BootMemory.Bitmap.Binding
import BootMemory.Bitmap.Range
import BootMemory.BootInfo
import BootMemory.DirectMap
import BootMemory.Event
import BootMemory.Fault
import BootMemory.Frames.Allocator
import BootMemory.Frames.Census
import BootMemory.Frames.Setup
import BootMemory.Frames.Storage
import BootMemory.Frames.Survey
import BootMemory.Frames.Table
import BootMemory.Hex
import BootMemory.Layout
import BootMemory.Listing
import BootMemory.Lock.Contention
import BootMemory.Lock.Mutex
import BootMemory.Lock.Session
import BootMemory.Lock.Ticket
import BootMemory.Mapper
import BootMemory.Memory
import BootMemory.Profile
import BootMemory.Proofs.Action
import BootMemory.Proofs.Address
import BootMemory.Proofs.Agreement
import BootMemory.Proofs.Alignment
import BootMemory.Proofs.Alignment.Rounding
import BootMemory.Proofs.Bitmap
import BootMemory.Proofs.Bitmap.Overreach
import BootMemory.Proofs.Bitmap.Rebinding
import BootMemory.Proofs.Bitmap.Row
import BootMemory.Proofs.Calls
import BootMemory.Proofs.DirectMap
import BootMemory.Proofs.DirectMap.OneToOne
import BootMemory.Proofs.Frames.Accessible
import BootMemory.Proofs.Frames.Accounting
import BootMemory.Proofs.Frames.Adjust
import BootMemory.Proofs.Frames.Agreement
import BootMemory.Proofs.Frames.Arises
import BootMemory.Proofs.Frames.Careless
import BootMemory.Proofs.Frames.Census
import BootMemory.Proofs.Frames.Checks
import BootMemory.Proofs.Frames.Completeness
import BootMemory.Proofs.Frames.Detection
import BootMemory.Proofs.Frames.Drain
import BootMemory.Proofs.Frames.Effects
import BootMemory.Proofs.Frames.Ensues
import BootMemory.Proofs.Frames.Exclusive
import BootMemory.Proofs.Frames.Exposure
import BootMemory.Proofs.Frames.Faultless
import BootMemory.Proofs.Frames.Independence
import BootMemory.Proofs.Frames.Interchange
import BootMemory.Proofs.Frames.Ledger
import BootMemory.Proofs.Frames.LiveSet
import BootMemory.Proofs.Frames.LowerBound
import BootMemory.Proofs.Frames.Machine
import BootMemory.Proofs.Frames.NextFit
import BootMemory.Proofs.Frames.Outcomes
import BootMemory.Proofs.Frames.Ownership
import BootMemory.Proofs.Frames.PostState
import BootMemory.Proofs.Frames.Profiles
import BootMemory.Proofs.Frames.Refusal
import BootMemory.Proofs.Frames.Release
import BootMemory.Proofs.Frames.Reordering
import BootMemory.Proofs.Frames.Requests
import BootMemory.Proofs.Frames.Reuse
import BootMemory.Proofs.Frames.Search
import BootMemory.Proofs.Frames.Setup
import BootMemory.Proofs.Frames.Sizing
import BootMemory.Proofs.Frames.Skew
import BootMemory.Proofs.Frames.Survey
import BootMemory.Proofs.Frames.Twin
import BootMemory.Proofs.Listing
import BootMemory.Proofs.Lock.Queue
import BootMemory.Proofs.Lock.Session
import BootMemory.Proofs.Lock.Updates
import BootMemory.Proofs.Memory
import BootMemory.Proofs.Mirroring
import BootMemory.Proofs.Region
import BootMemory.Proofs.Region.Carving
import BootMemory.Proofs.Region.WholeFrames
import BootMemory.Proofs.Simulation
import BootMemory.Region
import BootMemory.Size
import BootMemory.Stats

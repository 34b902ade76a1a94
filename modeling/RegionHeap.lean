import RegionHeap.Arena.Describe
import RegionHeap.World.Action
import RegionHeap.Proofs.Arena.Contest
import RegionHeap.Proofs.Heap.Table
import RegionHeap.Proofs.Race.Linearization
import RegionHeap.Proofs.Region.Fillers
import RegionHeap.Proofs.World.Accounting
import RegionHeap.Proofs.World.Conservation
import RegionHeap.Proofs.World.Delivery
import RegionHeap.Proofs.World.Draining
import RegionHeap.Proofs.World.Faithful
import RegionHeap.Proofs.World.Faultless
import RegionHeap.Proofs.World.Filtering
import RegionHeap.Proofs.World.Independence
import RegionHeap.Proofs.World.Indifference
import RegionHeap.Proofs.World.Integrity
import RegionHeap.Proofs.World.Likeness
import RegionHeap.Proofs.World.Locking
import RegionHeap.Proofs.World.Lossless
import RegionHeap.Proofs.World.Parsing
import RegionHeap.Proofs.World.Renewal
import RegionHeap.Proofs.World.Retention
import RegionHeap.Proofs.World.Retirement
import RegionHeap.Proofs.World.Sharing
import RegionHeap.Proofs.World.Slots
import RegionHeap.Proofs.World.Usage

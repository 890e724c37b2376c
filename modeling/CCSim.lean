import CCSim.Refinement
import CCSim.Cpu.Mutex
import CCSim.Cpu.Serial
import CCSim.Gr.Queues
import CCSim.Gr.Waiting
import CCSim.Gr.Gather
import CCSim.Grv.Gather
import CCSim.Grv.Queues
import CCSim.MessageOrder
import CCSim.Reads
import CCSim.Sessions
import CCSim.Aggregation
import CCSim.Network
import CCSim.Visibility
import CCSim.TailCalls
import CCSim.Statistics
import CCSim.Cpu.Usage
import CCSim.Cpu.Handover
import CCSim.Partitions
import CCSim.Workloads
import CCSim.HashStore
import CCSim.SlotTable
import CCSim.Messages
import CCSim.Gr.Chains
import CCSim.Gr.Collection
import CCSim.Configs.Generator
import CCSim.Rounds
import CCSim.LinkedLists
import CCSim.Gr.StableTime
import CCSim.Grv.StableVector
import CCSim.Discipline
import CCSim.StateIds
import CCSim.Causality
import CCSim.NoFailure
import CCSim.Gr.CausalReads

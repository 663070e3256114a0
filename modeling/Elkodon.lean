import Elkodon.Elementary.Math
import Elkodon.PortToUds.Impl.Entry
import Elkodon.PortToUds.Lemmas.Sequential
import Elkodon.PortToUds.Impl.Interleaving
import Elkodon.PortToUds.Lemmas.Interleaving
import Elkodon.PortToUds.Impl.Attach
import Elkodon.PortToUds.Lemmas.Attach
import Elkodon.PortToUds.Lemmas.Lifetime
import Elkodon.FreeBsd.Impl.ShmList
import Elkodon.FreeBsd.Lemmas.ShmList
import Elkodon.SharedMemory.Impl.Os
import Elkodon.SharedMemory.Impl.SharedMemory
import Elkodon.SharedMemory.Impl.System
import Elkodon.SharedMemory.Lemmas.Os
import Elkodon.SharedMemory.Lemmas.Step
import Elkodon.SharedMemory.Lemmas.Holds
import Elkodon.SharedMemory.Lemmas.Create
import Elkodon.SharedMemory.Lemmas.Open
import Elkodon.SharedMemory.Lemmas.Builder
import Elkodon.SharedMemory.Lemmas.Drop
import Elkodon.SharedMemory.Lemmas.Footprint
import Elkodon.SharedMemory.Lemmas.Ownership
import Elkodon.SharedMemory.Lemmas.Effects
import Elkodon.SharedMemory.Lemmas.Descriptors
import Elkodon.SharedMemory.Lemmas.Mappings
import Elkodon.SharedMemory.Lemmas.Sizes
import Elkodon.SharedMemory.Lemmas.Locks
import Elkodon.SharedMemory.Lemmas.Accounting
import Elkodon.MacOs.Impl.Cmsg
import Elkodon.MacOs.Lemmas.Cmsg
import Elkodon.MacOs.Lemmas.CmsgLayout

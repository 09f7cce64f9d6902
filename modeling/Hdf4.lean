import Hdf4.Basic
import Hdf4.FileStore
import Hdf4.Comp.Header
import Hdf4.Comp.Access
import Hdf4.Comp.Stream
import Hdf4.Comp.State
import Hdf4.Comp.Create
import Hdf4.Comp.CreateSpec
import Hdf4.Comp.CreateFail
import Hdf4.Comp.Element
import Hdf4.Comp.Attach
import Hdf4.Comp.Intact
import Hdf4.Alloc.Memfill
import Hdf4.Alloc.Strncpy
import Hdf4.Alloc.Big
import Hdf4.Alloc.PC
import Hdf4.Pablo.Trace
import Hdf4.Pablo.Wrappers
import Hdf4.Pablo.Session

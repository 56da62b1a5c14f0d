/-
# Rtl.Core -- `npc_core`

The pipeline, the I-cache and the AXI bridge, wired as in the top module.  The
order of the definitions is the order in which the combinational logic settles:
the requests of MEM and the master side of the AXI port depend on registers only,
the slave answers them, the pipeline's fetch request depends on that answer, and
the I-cache answers the fetch request.
-/
import NpcMachine.Rtl.Pipeline
import NpcMachine.Rtl.Icache
import NpcMachine.Rtl.AxiMaster

namespace NpcMachine.Rtl

set_option autoImplicit false

structure Core where
  pipeline : Pipeline
  icache : Icache
  axiMaster : AxiMaster
  deriving Inhabited

namespace Core

variable (c : Core) (i : AxiIn)

def axiReq : AxiReq where
  reqFetchValid := c.icache.fillReqValid
  reqFetchAddr := c.icache.fillReqAddr
  reqLoadValid := c.pipeline.reqLoadValid
  reqLoadAddr := c.pipeline.reqLoadAddr
  reqLoadSize := c.pipeline.reqLoadSize
  reqStoreValid := c.pipeline.reqStoreValid
  reqStoreAddr := c.pipeline.reqStoreAddr
  reqStoreSize := c.pipeline.reqStoreSize
  reqStoreData := c.pipeline.reqStoreData

/-- The `io_master` outputs. -/
def axiOut : AxiOut := c.axiMaster.out c.axiReq

/-- The data responses of the bridge, with an idle fetch port. -/
def dataIn : PipelineIn where
  respFetchValid := false
  respFetchInst := 0#32
  respFetchFault := false
  respFetchMisaligned := false
  reqLoadReady := c.axiMaster.reqLoadReady c.axiReq i
  respLoadData := c.axiMaster.respLoadData c.axiReq i
  respLoadFault := c.axiMaster.respLoadFault c.axiReq i
  respLoadMisaligned := AxiMaster.respLoadMisaligned
  reqStoreReady := AxiMaster.reqStoreReady c.axiReq i
  respStoreFault := AxiMaster.respStoreFault c.axiReq i
  respStoreMisaligned := AxiMaster.respStoreMisaligned

/-- The I-cache inputs; the fetch request does not read the fetch response. -/
def icacheIn : IcacheIn where
  flush := c.pipeline.fenceICommit
  lookupValid := c.pipeline.reqFetchValid (c.dataIn i)
  lookupAddr := c.pipeline.reqFetchAddr
  fillReqReady := c.axiMaster.reqFetchReady i
  fillRespValid := c.axiMaster.respFetchValid i
  fillRespData := AxiMaster.respFetchData i
  fillRespLast := AxiMaster.respFetchLast i
  fillRespFault := c.axiMaster.respFetchFault i

def pipelineIn : PipelineIn :=
  { c.dataIn i with
    respFetchValid := c.icache.respValid (c.icacheIn i)
    respFetchInst := c.icache.respInst (c.icacheIn i)
    respFetchFault := c.icache.respFault
    respFetchMisaligned := c.icache.respMisaligned (c.icacheIn i) }

/-- One clock edge with `reset` low. -/
def next : Core where
  pipeline := c.pipeline.next (c.pipelineIn i)
  icache := c.icache.next (c.icacheIn i)
  axiMaster := c.axiMaster.next c.axiReq i

/-- The registers while `reset` is high. -/
def reset : Core where
  pipeline := c.pipeline.reset
  icache := .reset
  axiMaster := .reset

def resetAt (vector : Word) : Core := { c.reset with pipeline := c.pipeline.resetAt vector }

theorem resetAt_default : c.resetAt resetVector = c.reset := rfl

end Core

end NpcMachine.Rtl

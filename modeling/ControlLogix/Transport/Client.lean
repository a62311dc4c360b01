import ControlLogix.Transport.World
import Mathlib.Tactic.SplitIfs

namespace ControlLogix

structure Client where
  started : Bool := false
  ready : Bool := false
  failed : Bool := false

namespace Client

def begin (c : Client) (w : World) : Status × Client × World :=
  let w := if c.started then w.ethEnd else w
  let c : Client := {started := false, ready := false, failed := false}
  let (up,w) := w.ethBegin
  if !up then (.error,{c with failed := true},w)
  else
    let (configured,w) := w.ethConfig
    if !configured then (.error,{c with failed := true},w)
    else (.pending,{c with started := true},w)

def poll (c : Client) (w : World) : Status × Client × World :=
  if c.failed then (.error,c,w)
  else if !c.started then (.notReady,c,w)
  else if c.ready then (.ok,c,w)
  else
    let (linkUp,w) := w.ethLink
    if !linkUp then (.pending,c,w)
    else
      let (hasIP,w) := w.ethLink
      if hasIP then (.ok,{c with ready := true},w) else (.pending,c,w)

theorem begin_hushed (c : Client) (w : World) : World.Hushed w (c.begin w).2.2 := by
  have hend : World.Hushed w (if c.started then w.ethEnd else w) := by
    split
    · exact World.ethEnd_hushed w
    · exact World.Hushed.refl w
  simp only [begin]
  generalize (if c.started = true then w.ethEnd else w) = w' at hend ⊢
  have hbegin := hend.trans (World.ethBegin_hushed w')
  split_ifs
  · exact hbegin
  · exact hbegin.trans (World.ethConfig_hushed _)
  · exact hbegin.trans (World.ethConfig_hushed _)

theorem poll_hushed (c : Client) (w : World) : World.Hushed w (c.poll w).2.2 := by
  have hlink := World.ethLink_hushed w
  simp only [poll]
  split_ifs
  · exact World.Hushed.refl w
  · exact World.Hushed.refl w
  · exact World.Hushed.refl w
  · exact hlink
  · exact hlink.trans (World.ethLink_hushed _)
  · exact hlink.trans (World.ethLink_hushed _)

end Client

end ControlLogix

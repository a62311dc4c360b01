import ControlLogix.Eip.Encapsulation
import ControlLogix.Transport.TcpConnection

namespace ControlLogix

-- The buffers and cursors of one exchange: tx is tx_[0..txLen_), rx is rx_[0..rxLen_).
structure Transfer where
  tx : List UInt8 := []
  txSent : Nat := 0
  rx : List UInt8 := []
  rxExpected : Nat := 0
  deriving DecidableEq

namespace Transfer

def load (frame : List UInt8) : Transfer where
  tx := frame
  rxExpected := kEncapsulationHeaderSize

-- The loops are run on fuel that exceeds the bytes they can still move.
def writeLoop : Nat → Transfer → TcpConnection → World → Status × Transfer × TcpConnection × World
  | 0, x, t, w => (.pending,x,t,w)
  | fuel+1, x, t, w =>
    if x.txSent < x.tx.length then
      match t.write x.tx x.txSent (x.tx.length - x.txSent) w with
      | (.ok 0,t,w) => (.pending,x,t,w)
      | (.ok n,t,w) => writeLoop fuel {x with txSent := x.txSent + n} t w
      | (.error st,t,w) => (st,x,t,w)
    else (.ok,x,t,w)

def writePending (x : Transfer) (t : TcpConnection) (w : World) :
    Status × Transfer × TcpConnection × World :=
  writeLoop (x.tx.length - x.txSent + 1) x t w

def readLoop (cap : Nat) :
    Nat → Transfer → TcpConnection → World → Status × Transfer × TcpConnection × World
  | 0, x, t, w => (.pending,x,t,w)
  | fuel+1, x, t, w =>
    if x.rx.length < x.rxExpected then
      match t.read (x.rxExpected - x.rx.length) w with
      | (.ok [],t,w) => (.pending,x,t,w)
      | (.ok got,t,w) =>
        let x := {x with rx := x.rx ++ got}
        if x.rx.length = kEncapsulationHeaderSize then
          let length := (decodeHeader x.rx).length.toNat
          if cap < length then (.error,x,t,w)
          else readLoop cap fuel {x with rxExpected := kEncapsulationHeaderSize + length} t w
        else readLoop cap fuel x t w
      | (.error st,t,w) => (st,x,t,w)
    else (.ok,x,t,w)

def readResponse (cap : Nat) (x : Transfer) (t : TcpConnection) (w : World) :
    Status × Transfer × TcpConnection × World :=
  readLoop cap (x.rxExpected - x.rx.length + cap + 1) x t w

end Transfer

end ControlLogix

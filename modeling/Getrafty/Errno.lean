set_option autoImplicit false

/- The values of `errno` that the code compares with or reports. -/
namespace Getrafty

def ENOENT : Int := 2

def EINTR : Int := 4

def EBADF : Int := 9

def EAGAIN : Int := 11

def EWOULDBLOCK : Int := EAGAIN

def ENOMEM : Int := 12

def EEXIST : Int := 17

def ENOTDIR : Int := 20

def EISDIR : Int := 21

def EINVAL : Int := 22

def ENFILE : Int := 23

def EMFILE : Int := 24

def ENOTEMPTY : Int := 39

def EMSGSIZE : Int := 90

def ENOTSUP : Int := 95

def EINPROGRESS : Int := 115

end Getrafty

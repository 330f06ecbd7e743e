/-
# `ssh.h`: the numbers of the messages
-/

namespace Glossh.Ssh

def SSH_MSG_DISCONNECT : UInt8 := 1
def SSH_MSG_IGNORE : UInt8 := 2
def SSH_MSG_UNIMPLEMENTED : UInt8 := 3
def SSH_MSG_DEBUG : UInt8 := 4
def SSH_MSG_SERVICE_REQUEST : UInt8 := 5
def SSH_MSG_SERVICE_ACCEPT : UInt8 := 6
def SSH_MSG_KEXINIT : UInt8 := 20
def SSH_MSG_NEWKEYS : UInt8 := 21
def SSH_MSG_KEXDH_INIT : UInt8 := 30
def SSH_MSG_KEXDH_REPLY : UInt8 := 31
def SSH_MSG_USERAUTH_REQUEST : UInt8 := 50
def SSH_MSG_USERAUTH_FAILURE : UInt8 := 51
def SSH_MSG_USERAUTH_SUCCESS : UInt8 := 52
def SSH_MSG_USERAUTH_PK_OK : UInt8 := 60
def SSH_MSG_CHANNEL_OPEN : UInt8 := 90
def SSH_MSG_CHANNEL_OPEN_CONFIRMATION : UInt8 := 91
def SSH_MSG_CHANNEL_OPEN_FAILURE : UInt8 := 92
def SSH_MSG_CHANNEL_WINDOW_ADJUST : UInt8 := 93
def SSH_MSG_CHANNEL_DATA : UInt8 := 94
def SSH_MSG_CHANNEL_EXTENDED_DATA : UInt8 := 95
def SSH_MSG_CHANNEL_EOF : UInt8 := 96
def SSH_MSG_CHANNEL_CLOSE : UInt8 := 97
def SSH_MSG_CHANNEL_REQUEST : UInt8 := 98
def SSH_MSG_CHANNEL_SUCCESS : UInt8 := 99
def SSH_MSG_CHANNEL_FAILURE : UInt8 := 100

def SSH_OPEN_ADMINISTRATIVELY_PROHIBITED : Nat := 1

end Glossh.Ssh
